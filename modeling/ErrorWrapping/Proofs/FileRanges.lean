import ErrorWrapping.Proofs.LineTables
import ErrorWrapping.Source.Files
import Mathlib

/-
Ranges of files.

Every file takes up one offset more than it has bytes, and the files follow each other without a
gap. So an offset belongs to exactly one file or lies outside of all of them, and what is shown for
it is read off the text of that file.
-/

namespace ErrorWrapping

namespace SourceFile

/-- The offsets of a file, the one just past its last byte included. -/
def range (file : SourceFile) : Set Nat :=
  Set.Icc file.base (file.base + file.size)

theorem contains_iff (file : SourceFile) (offset : Nat) :
    file.contains offset = true ↔ offset ∈ file.range := by
  simp only [contains, Bool.and_eq_true, decide_eq_true_eq, range, Set.mem_Icc]
  omega

theorem size_ofText (path text : String) (base : Nat) :
    (ofText path text base).size = text.utf8ByteSize :=
  (Text.utf8ByteSize_eq text).symm

end SourceFile

namespace FileSet

/-- The number of offsets that these paths and texts take up. -/
def extent (files : List (String × String)) : Nat :=
  (files.map fun file => file.2.utf8ByteSize + 1).sum

/-- Files that follow each other from an offset on. -/
def layout : Nat → List (String × String) → List SourceFile
  | _, [] => []
  | base, (path, text) :: rest =>
    .ofText path text base :: layout (base + text.utf8ByteSize + 1) rest

theorem nextBase_add (set : FileSet) (path text : String) :
    (set.add path text).2.nextBase = set.nextBase + text.utf8ByteSize + 1 := by
  rw [nextBase, add, Array.back?_push, Text.utf8ByteSize_eq]
  rfl

theorem files_ofList (files : List (String × String)) :
    (ofList files).files.toList = layout 1 files := by
  have added (set : FileSet) :
      (files.foldl (fun set file => (set.add file.1 file.2).2) set).files.toList =
        set.files.toList ++ layout set.nextBase files := by
    induction files generalizing set with
    | nil => exact (List.append_nil _).symm
    | cons file rest ih =>
        rw [List.foldl_cons, ih, nextBase_add]
        simp [add, layout, SourceFile.ofText]
  exact added empty

variable {files : List (String × String)} {base offset : Nat} {file : SourceFile}

theorem extent_cons (path text : String) (rest : List (String × String)) :
    extent ((path, text) :: rest) = text.utf8ByteSize + 1 + extent rest :=
  List.sum_cons

theorem range_of_mem_layout (member : file ∈ layout base files) :
    base ≤ file.base ∧ file.base + file.size < base + extent files := by
  induction files generalizing base with
  | nil => cases member
  | cons first rest ih =>
      obtain ⟨path, text⟩ := first
      rw [extent_cons]
      rcases List.mem_cons.mp member with rfl | later
      · refine ⟨Nat.le_refl base, ?_⟩
        rw [SourceFile.size_ofText]
        exact Nat.add_lt_add_left (by omega) base
      · have inner := ih later
        omega

theorem exists_mem_layout (from_ : base ≤ offset) (below : offset < base + extent files) :
    ∃ file ∈ layout base files, offset ∈ file.range := by
  induction files generalizing base with
  | nil => exact absurd below (Nat.not_lt.mpr from_)
  | cons first rest ih =>
      obtain ⟨path, text⟩ := first
      rw [extent_cons] at below
      by_cases inFirst : offset ≤ base + text.utf8ByteSize
      · refine ⟨_, List.mem_cons_self, from_, ?_⟩
        rw [Text.utf8ByteSize_eq] at inFirst
        exact inFirst
      · have later : base + text.utf8ByteSize + 1 ≤ offset := by omega
        obtain ⟨file, member, inside⟩ := ih later (by omega)
        exact ⟨file, List.mem_cons_of_mem _ member, inside⟩

theorem pairwise_layout (base : Nat) (files : List (String × String)) :
    (layout base files).Pairwise fun one other => one.base + one.size < other.base := by
  induction files generalizing base with
  | nil => exact .nil
  | cons first rest ih =>
      obtain ⟨path, text⟩ := first
      refine .cons (fun other member => ?_) (ih _)
      rw [SourceFile.size_ofText]
      exact (range_of_mem_layout member).1

theorem entries_layout (base : Nat) (files : List (String × String)) :
    (layout base files).map (fun file => (file.path, String.ofList file.text)) = files := by
  induction files generalizing base with
  | nil => rfl
  | cons first rest ih =>
      rw [layout, List.map_cons, ih, SourceFile.ofText, String.ofList_toList]

/-- No two files share an offset. -/
theorem index_unique {one other : Nat} {second : SourceFile}
    (first : (layout base files)[one]? = some file)
    (again : (layout base files)[other]? = some second) (inside : offset ∈ file.range)
    (also : offset ∈ second.range) : one = other := by
  obtain ⟨short, rfl⟩ := List.getElem?_eq_some_iff.mp first
  obtain ⟨alsoShort, rfl⟩ := List.getElem?_eq_some_iff.mp again
  have apart := List.pairwise_iff_getElem.mp (pairwise_layout base files)
  rcases Nat.lt_trichotomy one other with earlier | same | later
  · have gap := apart one other short alsoShort earlier
    exact absurd (Nat.le_trans also.1 inside.2) (Nat.not_le.mpr gap)
  · exact same
  · have gap := apart other one alsoShort short later
    exact absurd (Nat.le_trans inside.1 also.2) (Nat.not_le.mpr gap)

theorem mem_of_fileOf? {set : FileSet} (found : set.fileOf? offset = some file) :
    file ∈ set.files.toList ∧ file.contains offset = true := by
  unfold fileOf? at found
  dsimp only at found
  split at found
  · cases found
  · obtain ⟨here, holds⟩ := Option.filter_eq_some_iff.mp found
    exact ⟨Array.mem_toList_iff.mpr (Array.mem_of_getElem? here), holds⟩

/-- Halving the files by their starts ends just after the file that holds an offset. -/
theorem fileOf?_of_mem (member : file ∈ layout 1 files) (inside : offset ∈ file.range) :
    (ofList files).fileOf? offset = some file := by
  obtain ⟨index, small, rfl⟩ := List.getElem_of_mem member
  have entries : (ofList files).files = (layout 1 files).toArray := by
    rw [← files_ofList, Array.toArray_toList]
  have ordered : ∀ {one other : Nat} (_ : one < other) (small : other < (layout 1 files).length),
      (layout 1 files)[one].base + (layout 1 files)[one].size < (layout 1 files)[other].base :=
    fun less small => List.pairwise_iff_getElem.mp (pairwise_layout 1 files) _ _ _ small less
  have splits : Sorted.Splits (fun file : SourceFile => decide (file.base ≤ offset))
      (layout 1 files).toArray := fun one other less small holds => by
    have gap := ordered less small
    have later : (layout 1 files)[other].base ≤ offset := of_decide_eq_true holds
    have early : one < (layout 1 files).length := Nat.lt_trans less small
    refine decide_eq_true (p := (layout 1 files)[one].base ≤ offset) ?_
    omega
  have starts : ∀ {index : Nat} (small : index < (layout 1 files).length),
      index < Sorted.partitionPoint (fun file : SourceFile => decide (file.base ≤ offset))
        (layout 1 files).toArray ↔ (layout 1 files)[index].base ≤ offset :=
    fun small => (Sorted.lt_partitionPoint_iff splits small).trans decide_eq_true_iff
  have within : Sorted.partitionPoint (fun file : SourceFile => decide (file.base ≤ offset))
      (layout 1 files).toArray ≤ (layout 1 files).length := Sorted.partitionPoint_le_size splits
  rw [fileOf?, entries]
  generalize Sorted.partitionPoint (fun file : SourceFile => decide (file.base ≤ offset))
    (layout 1 files).toArray = after at within starts ⊢
  have reached := (starts small).mpr inside.1
  have stops : ¬ index + 1 < after := fun further => by
    have next : index + 1 < (layout 1 files).length := Nat.lt_of_lt_of_le further within
    have gap := ordered (Nat.lt_succ_self index) next
    exact Nat.not_le_of_lt (Nat.lt_of_le_of_lt inside.2 gap) ((starts next).mp further)
  obtain rfl : after = index + 1 := by omega
  simp [small, (SourceFile.contains_iff _ offset).mpr inside]

/-- The file that is found by halving is the one that is met by going through all files. -/
theorem fileOf?_ofList (files : List (String × String)) (offset : Nat) :
    (ofList files).fileOf? offset = (ofList files).files.toList.find? (·.contains offset) := by
  rw [files_ofList]
  cases found : (layout 1 files).find? (·.contains offset) with
  | none =>
      by_contra some
      obtain ⟨file, here⟩ := Option.ne_none_iff_exists'.mp some
      obtain ⟨member, holds⟩ := mem_of_fileOf? here
      rw [files_ofList] at member
      exact List.find?_eq_none.mp found file member holds
  | some file =>
      have holds := List.find?_some found
      exact fileOf?_of_mem (List.mem_of_find?_eq_some found) ((file.contains_iff offset).mp holds)

theorem fileOf?_outside (outside : offset = 0 ∨ extent files < offset) :
    (ofList files).fileOf? offset = none := by
  by_contra some
  obtain ⟨file, found⟩ := Option.ne_none_iff_exists'.mp some
  obtain ⟨member, holds⟩ := mem_of_fileOf? found
  rw [files_ofList] at member
  have bounds := range_of_mem_layout member
  have inside := (file.contains_iff offset).mp holds
  rw [SourceFile.range, Set.mem_Icc] at inside
  omega

theorem covers_layout :
    (∃ file ∈ layout 1 files, offset ∈ file.range) ↔ 1 ≤ offset ∧ offset ≤ extent files := by
  constructor
  · rintro ⟨file, member, inside⟩
    have bounds := range_of_mem_layout member
    rw [SourceFile.range, Set.mem_Icc] at inside
    omega
  · rintro ⟨from_, upTo⟩
    exact exists_mem_layout from_ (by omega)

/-! ### What is shown for an offset -/

/-- The place shown for the offset that is so many bytes into a file. The column of an offset
between two characters counts the characters before it on its line. -/
structure Shows (file : SourceFile) (within : Nat) (location : Location) : Prop where
  path : location.path = file.path
  line : location.line = 1 + ((Text.bytes file.text).take within).count Text.newline
  column : ∀ start, start <+: file.text → Text.byteCount start = within →
    location.column = 1 + (Text.sinceNewline start).length
  bounded : location.line ≤ within + 1 ∧ location.column ≤ within + 1

section

variable {set : FileSet} {line : List Char} {index within column : Nat}

/-- The place of an offset, by the line it is on: the characters of that line before the offset are
cut out of the text from where the table says that the line starts. -/
theorem locate?_of_line (found : set.fileOf? (file.base + within) = some file)
    (row : (Text.lines file.text)[index]? = some line)
    (place : within = Text.byteCount (Text.above (Text.lines file.text) index) + column)
    (fits : column ≤ Text.byteCount line) (inside : within ≤ file.size) :
    set.locate? (file.base + within) =
      some ⟨file.path, index + 1,
        ((Text.slice? file.text (Text.byteCount (Text.above (Text.lines file.text) index))
          within).map (·.length)).getD 0 + 1⟩ := by
  have number : file.lines.indexOf within = index := by
    rw [file.built, LineTable.indexOf_build, place, Text.lineOf_eq row fits]
  have start : file.lines.starts.getD index 0 =
      Text.byteCount (Text.above (Text.lines file.text) index) := by
    rw [file.built, Array.getD_eq_getD_getElem?, LineTable.getElem?_starts, Text.lineStart?_eq row,
      Option.getD_some]
  simp only [locate?, found, Option.bind_eq_bind, Option.bind_some, Nat.add_sub_cancel_left, number,
    start, Nat.min_eq_left inside]
  rfl

theorem lineText?_of_line (found : set.fileOf? (file.base + within) = some file)
    (row : (Text.lines file.text)[index]? = some line)
    (place : within = Text.byteCount (Text.above (Text.lines file.text) index) + column)
    (fits : column ≤ Text.byteCount line) :
    set.lineText? (file.base + within) = some (String.ofList line) := by
  have number : file.lines.indexOf within = index := by
    rw [file.built, LineTable.indexOf_build, place, Text.lineOf_eq row fits]
  have start : file.lines.starts[index]? =
      some (Text.byteCount (Text.above (Text.lines file.text) index)) := by
    rw [file.built, LineTable.getElem?_starts, Text.lineStart?_eq row]
  have stop : file.lines.stop index file.size =
      Text.byteCount (Text.above (Text.lines file.text) index) + Text.byteCount line := by
    rw [file.built, SourceFile.size, LineTable.stop_build row]
  have whole := Text.join_eq row
  rw [Text.join_lines] at whole
  have cut : Text.slice? file.text (Text.byteCount (Text.above (Text.lines file.text) index))
      (Text.byteCount (Text.above (Text.lines file.text) index) + Text.byteCount line) =
        some line :=
    Text.slice?_eq_some_iff.mpr ⟨_, _, whole, rfl, rfl⟩
  simp only [lineText?, found, Option.bind_eq_bind, Option.bind_some, Nat.add_sub_cancel_left,
    number, start, stop, cut]
  rfl

end

theorem locate?_of_mem {within : Nat} (member : file ∈ layout 1 files) (fits : within ≤ file.size) :
    ∃ location, (ofList files).locate? (file.base + within) = some location ∧
      Shows file within location := by
  have inside : file.base + within ∈ file.range :=
    ⟨Nat.le_add_right _ _, Nat.add_le_add_left fits _⟩
  obtain ⟨before, line, after, locus, row, isAbove, _⟩ := Text.exists_lineAt fits
  have onLine : within - Text.byteCount before ≤ Text.byteCount line :=
    Nat.sub_le_of_le_add (by rw [Nat.add_comm]; exact locus.stop)
  have place : within = Text.byteCount (Text.above (Text.lines file.text) (before.count '\n')) +
      (within - Text.byteCount before) := by
    rw [isAbove]
    exact (Nat.add_sub_cancel' locus.start).symm
  refine ⟨_, locate?_of_line (fileOf?_of_mem member inside) row place onLine fits, rfl, ?_, ?_, ?_,
    ?_⟩
  · rw [locus.count_newline]
    exact Nat.add_comm _ _
  · intro start initial size
    rw [isAbove, locus.slice? initial size, Option.map_some, Option.getD_some]
    exact Nat.add_comm _ _
  · rw [← locus.count_newline]
    exact Nat.succ_le_succ (List.count_le_length.trans (List.length_take_le _ _))
  · refine Nat.succ_le_succ ?_
    rw [isAbove]
    cases cut : Text.slice? file.text (Text.byteCount before) within with
    | none => exact Nat.zero_le _
    | some part =>
        obtain ⟨_, _, _, _, size⟩ := Text.slice?_eq_some_iff.mp cut
        have long := Text.length_le_byteCount part
        rw [Option.map_some, Option.getD_some]
        omega

theorem lineText?_of_mem {within : Nat} (member : file ∈ layout 1 files)
    (fits : within ≤ file.size) :
    ∃ before line after, Text.LineAt file.text within before line after ∧
      (ofList files).lineText? (file.base + within) = some (String.ofList line) := by
  have inside : file.base + within ∈ file.range :=
    ⟨Nat.le_add_right _ _, Nat.add_le_add_left fits _⟩
  obtain ⟨before, line, after, locus, row, isAbove, _⟩ := Text.exists_lineAt fits
  have onLine : within - Text.byteCount before ≤ Text.byteCount line :=
    Nat.sub_le_of_le_add (by rw [Nat.add_comm]; exact locus.stop)
  have place : within = Text.byteCount (Text.above (Text.lines file.text) (before.count '\n')) +
      (within - Text.byteCount before) := by
    rw [isAbove]
    exact (Nat.add_sub_cancel' locus.start).symm
  exact ⟨before, line, after, locus, lineText?_of_line (fileOf?_of_mem member inside) row place onLine⟩

theorem exists_within (from_ : 1 ≤ offset) (upTo : offset ≤ extent files) :
    ∃ file ∈ layout 1 files, ∃ within ≤ file.size, offset = file.base + within := by
  obtain ⟨file, member, low, high⟩ := covers_layout.mpr ⟨from_, upTo⟩
  exact ⟨file, member, offset - file.base, by omega, by omega⟩

/-- An answer that needs a file, and that every offset of a file has. -/
theorem eq_none_iff_outside {α : Type} {answer : Nat → Option α}
    (needs : ∀ offset, (ofList files).fileOf? offset = none → answer offset = none)
    (answers : ∀ file ∈ layout 1 files, ∀ within ≤ file.size, answer (file.base + within) ≠ none)
    (offset : Nat) : answer offset = none ↔ offset = 0 ∨ extent files < offset := by
  refine ⟨fun none => ?_, fun outside => needs offset (fileOf?_outside outside)⟩
  by_contra inside
  have upTo : offset ≤ extent files := by omega
  obtain ⟨file, member, within, fits, rfl⟩ := exists_within (by omega) upTo
  exact answers file member within fits none

/-- What the files of a set show for every offset. -/
structure Charts (set : FileSet) (files : List (String × String)) : Prop where
  entries : set.files.toList.map (fun file => (file.path, String.ofList file.text)) = files
  apart : set.files.toList.Pairwise fun one other => Disjoint one.range other.range
  covers : ∀ offset, (∃ file ∈ set.files.toList, offset ∈ file.range) ↔
    1 ≤ offset ∧ offset ≤ extent files
  unlocated : ∀ offset, set.locate? offset = none ↔ offset = 0 ∨ extent files < offset
  unshown : ∀ offset, set.lineText? offset = none ↔ offset = 0 ∨ extent files < offset
  located : ∀ file ∈ set.files.toList, ∀ within ≤ file.size, ∃ location,
    set.locate? (file.base + within) = some location ∧ Shows file within location
  shown : ∀ file ∈ set.files.toList, ∀ within ≤ file.size, ∃ before line after,
    Text.LineAt file.text within before line after ∧
      set.lineText? (file.base + within) = some (String.ofList line)

/-- Files take up the offsets from one to their extent, each offset lies in one file, and its place
and its line are those of the text of that file. No offset, line or column exceeds the extent, so
all of them fit into a machine word if the extent does. -/
theorem charts_ofList (files : List (String × String)) : (ofList files).Charts files where
  entries := by rw [files_ofList, entries_layout]
  apart := by
    rw [files_ofList]
    exact (pairwise_layout 1 files).imp fun gap =>
      Set.disjoint_left.mpr fun _ inside also => Nat.not_le.mpr gap (also.1.trans inside.2)
  covers offset := by rw [files_ofList]; exact covers_layout
  unlocated := by
    refine eq_none_iff_outside (fun offset outside => by simp [locate?, outside]) ?_
    intro file member within fits none
    obtain ⟨location, found, _⟩ := locate?_of_mem member fits
    cases none.symm.trans found
  unshown := by
    refine eq_none_iff_outside (fun offset outside => by simp [lineText?, outside]) ?_
    intro file member within fits none
    obtain ⟨before, line, after, _, found⟩ := lineText?_of_mem member fits
    cases none.symm.trans found
  located file member within fits := by
    rw [files_ofList] at member
    exact locate?_of_mem member fits
  shown file member within fits := by
    rw [files_ofList] at member
    exact lineText?_of_mem member fits

end FileSet

end ErrorWrapping
