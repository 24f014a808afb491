import ErrorWrapping.Render
import ErrorWrapping.Proofs.FileRanges

/-
Colours in the output for people.

Taking every escape sequence out of a text leaves the rest of it as it is. A text that holds no
escape character holds no sequence, and a painted piece is such a text between two sequences, so
what is left of painted pieces is their text. Everything that is shown is put together from
words, numbers, and texts of the program and the result.
-/

namespace ErrorWrapping

/-! ### Escape sequences -/

namespace Text

def escape : Char := '\x1b'

mutual

/-- A text without its escape sequences. -/
def withoutSequences : List Char → List Char
  | [] => []
  | c :: rest =>
    if c = escape ∧ rest.head? = some '[' then afterSequence rest
    else c :: withoutSequences rest

/-- What is left of a text that begins within a sequence. -/
def afterSequence : List Char → List Char
  | [] => []
  | c :: rest => if c = 'm' then withoutSequences rest else afterSequence rest

end

variable {text : List Char}

theorem withoutSequences_append (plain : escape ∉ text) (rest : List Char) :
    withoutSequences (text ++ rest) = text ++ withoutSequences rest := by
  induction text with
  | nil => rfl
  | cons c text ih =>
      rw [List.mem_cons, not_or] at plain
      rw [List.cons_append, withoutSequences, if_neg (fun both => plain.1 both.1.symm),
        ih plain.2, List.cons_append]

theorem afterSequence_append (noEnd : 'm' ∉ text) (rest : List Char) :
    afterSequence (text ++ 'm' :: rest) = withoutSequences rest := by
  induction text with
  | nil => rw [List.nil_append, afterSequence, if_pos rfl]
  | cons c text ih =>
      rw [List.mem_cons, not_or] at noEnd
      rw [List.cons_append, afterSequence, if_neg (Ne.symm noEnd.1), ih noEnd.2]

theorem withoutSequences_selectGraphics {parameters : String} (noEnd : 'm' ∉ parameters.toList)
    (rest : List Char) :
    withoutSequences ((selectGraphics parameters).toList ++ rest) = withoutSequences rest := by
  have opened : (selectGraphics parameters).toList ++ rest =
      escape :: ('[' :: parameters.toList ++ 'm' :: rest) := by
    simp [selectGraphics, escape]
  have inner : 'm' ∉ '[' :: parameters.toList := by simpa using noEnd
  rw [opened, withoutSequences, if_pos ⟨rfl, rfl⟩, afterSequence_append inner]

/-! ### Texts without the escape character -/

def Unescaped (text : String) : Prop :=
  escape ∉ text.toList

instance (text : String) : Decidable (Unescaped text) :=
  inferInstanceAs (Decidable (escape ∉ text.toList))

theorem unescaped_append {one two : String} :
    Unescaped (one ++ two) ↔ Unescaped one ∧ Unescaped two := by
  simp only [Unescaped, String.toList_append, List.mem_append, not_or]

theorem unescaped_join {texts : List String} :
    Unescaped (String.join texts) ↔ ∀ text ∈ texts, Unescaped text := by
  simp only [Unescaped, String.toList_join, List.mem_flatMap, not_exists, not_and]

theorem unescaped_toString (n : Nat) : Unescaped (toString n) := by
  have digits : (toString n).toList = Nat.toDigits 10 n := by simp
  intro member
  rw [digits] at member
  exact absurd (Nat.isDigit_of_mem_toDigits (by decide) (by decide) member) (by decide)

theorem Unescaped.trimEnd {text : String} (plain : Unescaped text) :
    Unescaped (trimEnd text) := by
  have inside : dropEnd isBlank text.toList <+: text.toList := List.rdropWhile_prefix isBlank _
  intro member
  rw [Text.trimEnd, String.toList_ofList] at member
  exact plain (inside.subset member)

theorem unescaped_slice {part : List Char} {start stop : Nat} (plain : escape ∉ text)
    (cut : slice? text start stop = some part) : Unescaped (String.ofList part) := by
  obtain ⟨before, after, rfl, _, _⟩ := slice?_eq_some_iff.mp cut
  intro member
  rw [String.toList_ofList] at member
  exact plain (List.mem_append_left _ (List.mem_append_right _ member))

end Text

open Text (Unescaped unescaped_append unescaped_join unescaped_toString withoutSequences
  withoutSequences_append withoutSequences_selectGraphics)

/-! ### Painted pieces -/

namespace Piece

theorem noEnd_parameters (style : Style) : 'm' ∉ style.parameters.toList := by
  cases style <;> decide

theorem withoutSequences_paint {piece : Piece} (plain : Unescaped piece.text) (colors : Bool)
    (rest : List Char) :
    withoutSequences ((paint colors piece).toList ++ rest) =
      (paint false piece).toList ++ withoutSequences rest := by
  obtain ⟨style, text⟩ := piece
  cases style with
  | none => exact withoutSequences_append plain rest
  | some style =>
      cases colors with
      | false => exact withoutSequences_append plain rest
      | true =>
          -- The text stands between the sequence of the style and the reset; both go.
          have reset : 'm' ∉ "0".toList := by decide
          have around : (paint true ⟨some style, text⟩).toList ++ rest =
              (selectGraphics style.parameters).toList ++
                (text.toList ++ ((selectGraphics "0").toList ++ rest)) := by
            simp [paint]
          rw [around, withoutSequences_selectGraphics (noEnd_parameters style),
            withoutSequences_append plain, withoutSequences_selectGraphics reset]
          rfl

theorem paintAll_cons (colors : Bool) (piece : Piece) (pieces : List Piece) :
    (paintAll colors (piece :: pieces)).toList =
      (paint colors piece).toList ++ (paintAll colors pieces).toList := by
  simp [paintAll, String.toList_join]

theorem withoutSequences_paintAll {pieces : List Piece}
    (plain : ∀ piece ∈ pieces, Unescaped piece.text) (colors : Bool) :
    withoutSequences (paintAll colors pieces).toList = (paintAll false pieces).toList := by
  induction pieces with
  | nil => rfl
  | cons piece pieces ih =>
      obtain ⟨first, others⟩ := List.forall_mem_cons.mp plain
      rw [paintAll_cons, paintAll_cons, withoutSequences_paint first, ih others]

theorem paintAll_append (colors : Bool) (one two : List Piece) :
    paintAll colors (one ++ two) = paintAll colors one ++ paintAll colors two := by
  rw [← String.toList_inj]
  simp [paintAll, String.toList_join]

end Piece

/-! ### Places -/

/-- No path and no text of a file holds the escape character. -/
def FileSet.Unescaped (files : FileSet) : Prop :=
  ∀ file ∈ files.files.toList, Text.Unescaped file.path ∧ Text.escape ∉ file.text

namespace FileSet

variable {files : FileSet}

theorem Unescaped.locate? (plain : files.Unescaped) {offset : Nat} {location : Location}
    (found : files.locate? offset = some location) : Text.Unescaped location.describe := by
  simp only [FileSet.locate?, bind, Option.bind_eq_some_iff] at found
  obtain ⟨file, found, located⟩ := found
  obtain rfl := Option.some.inj located
  have path := (plain file (mem_of_fileOf? found).1).1
  simp only [Location.describe, unescaped_append]
  exact ⟨⟨⟨⟨path, by decide⟩, unescaped_toString _⟩, by decide⟩, unescaped_toString _⟩

theorem Unescaped.describeSpan (plain : files.Unescaped) (span : Span) :
    Text.Unescaped (describeSpan (some files) span) := by
  rw [FileSet.describeSpan, Option.bind_some]
  split
  · rw [Span.describe, unescaped_append, unescaped_append]
    exact ⟨⟨unescaped_toString _, by decide⟩, unescaped_toString _⟩
  · rename_i location found
    exact plain.locate? found

theorem Unescaped.lineText? (plain : files.Unescaped) {offset : Nat} {line : String}
    (found : files.lineText? offset = some line) : Text.Unescaped line := by
  simp only [FileSet.lineText?, bind, Option.bind_eq_some_iff] at found
  obtain ⟨file, found, start, _, part, cut, shown⟩ := found
  obtain rfl := Option.some.inj shown
  exact Text.unescaped_slice (plain file (mem_of_fileOf? found).1).2 cut

end FileSet

/-! ### What is shown -/

structure Diagnostic.Unescaped (diagnostic : Diagnostic) : Prop where
  message : Text.Unescaped diagnostic.message
  labels : ∀ label ∈ diagnostic.labels, Text.Unescaped label.message
  notes : ∀ note ∈ diagnostic.notes, Text.Unescaped note
  suggestions : ∀ suggestion ∈ diagnostic.suggestions, Text.Unescaped suggestion

structure UnitReport.Unescaped (report : UnitReport) : Prop where
  unit : Text.Unescaped report.unit
  verdicts : ∀ verdict ∈ report.verdicts, Text.Unescaped verdict.name
  diagnostics : ∀ diagnostic ∈ report.diagnostics, diagnostic.Unescaped

def RunResult.Unescaped (result : RunResult) : Prop :=
  ∀ report ∈ result.reports, report.Unescaped

namespace Diagnostic

variable {files : FileSet} {diagnostic : Diagnostic} {piece : Piece}

theorem unescaped_labelPieces (shown : files.Unescaped) {label : Label}
    (plain : Text.Unescaped label.message) (member : piece ∈ labelPieces (some files) label) :
    Text.Unescaped piece.text := by
  have place := shown.describeSpan label.span
  simp only [labelPieces, List.mem_append, List.mem_cons, List.not_mem_nil, or_false,
    List.mem_map, Option.mem_toList] at member
  rcases member with (rfl | rfl | rfl) | ⟨line, found, rfl⟩
  · simp only [Piece.plain, unescaped_append]
    refine ⟨⟨⟨⟨by decide, ?_⟩, by decide⟩, place⟩, by decide⟩
    split <;> decide
  · exact plain
  · decide
  · have inside : Text.Unescaped line := by
      split at found
      · exact shown.lineText? found
      · cases found
    simp only [Piece.plain, unescaped_append]
    exact ⟨⟨by decide, inside.trimEnd⟩, by decide⟩

theorem unescaped_remarkPieces {style : Style} {heading text : String}
    (head : Text.Unescaped heading) (plain : Text.Unescaped text)
    (member : piece ∈ remarkPieces style heading text) : Text.Unescaped piece.text := by
  simp only [remarkPieces, List.mem_cons, List.not_mem_nil, or_false] at member
  rcases member with rfl | rfl | rfl
  · decide
  · exact head
  · simp only [Piece.plain, unescaped_append]
    exact ⟨⟨by decide, plain⟩, by decide⟩

theorem Unescaped.pieces (shown : files.Unescaped) (plain : diagnostic.Unescaped)
    (member : piece ∈ diagnostic.pieces (some files)) : Text.Unescaped piece.text := by
  simp only [Diagnostic.pieces, List.mem_append, List.mem_flatMap] at member
  rcases member with ((((heading | label) | note) | suggestion) | last)
  · simp only [List.mem_cons, List.not_mem_nil, or_false] at heading
    rcases heading with rfl | rfl | rfl
    · show Text.Unescaped diagnostic.severity.describe
      cases diagnostic.severity <;> decide
    · show Text.Unescaped ("[" ++ diagnostic.code.describe ++ "]")
      cases diagnostic.code <;> decide
    · simp only [Piece.plain, unescaped_append]
      exact ⟨⟨by decide, plain.message⟩, by decide⟩
  · obtain ⟨label, found, member⟩ := label
    exact unescaped_labelPieces shown (plain.labels label found) member
  · obtain ⟨note, found, member⟩ := note
    exact unescaped_remarkPieces (by decide) (plain.notes note found) member
  · obtain ⟨suggestion, found, member⟩ := suggestion
    exact unescaped_remarkPieces (by decide) (plain.suggestions suggestion found) member
  · obtain rfl := List.mem_singleton.mp last
    decide

theorem unescaped_counted (count : Nat) (noun : String) (plain : Text.Unescaped noun) :
    Text.Unescaped (counted count noun) := by
  simp only [counted, unescaped_append]
  refine ⟨⟨⟨unescaped_toString count, by decide⟩, plain⟩, ?_⟩
  split <;> decide

theorem unescaped_summaryPieces (errors warnings : Nat) :
    ∀ piece ∈ summaryPieces errors warnings, Text.Unescaped piece.text := by
  have found := unescaped_counted errors "unwrapped error" (by decide)
  have emitted := unescaped_counted warnings "warning" (by decide)
  rw [summaryPieces]
  split_ifs <;> simp +decide [Piece.styled, Piece.plain, unescaped_append, found, emitted]

/-- The empty line after a diagnostic is always there. -/
theorem paintAll_pieces_ne_empty (files : FileSet) (diagnostic : Diagnostic) :
    Piece.paintAll false (diagnostic.pieces (some files)) ≠ "" := by
  intro none
  have last : Piece.paintAll false [.plain "\n"] = "" := by
    rw [Diagnostic.pieces, Piece.paintAll_append, String.append_eq_empty_iff] at none
    exact none.2
  exact absurd last (by decide)

end Diagnostic

/-! ### The output of a run -/

namespace RunResult

variable {files : FileSet} {result : RunResult}

theorem unescaped_listing {report : UnitReport} (plain : report.Unescaped) :
    Text.Unescaped (listing report) := by
  rw [listing]
  split
  · decide
  · simp only [unescaped_append, unescaped_join, List.mem_map]
    refine ⟨⟨plain.unit, by decide⟩, ?_⟩
    rintro _ ⟨verdict, found, rfl⟩
    simp only [FunctionVerdict.describe, unescaped_append]
    refine ⟨⟨by decide, ⟨⟨plain.verdicts verdict found, by decide⟩, ?_⟩, by decide⟩, by decide⟩
    cases verdict.verdict <;> decide

theorem Unescaped.diagnostics (plain : result.Unescaped) {diagnostic : Diagnostic}
    (member : diagnostic ∈ result.diagnostics) : diagnostic.Unescaped := by
  obtain ⟨report, found, member⟩ := List.mem_flatMap.mp member
  exact (plain report found).diagnostics diagnostic member

theorem isClean_iff (result : RunResult) : result.isClean = true ↔ result.diagnostics = [] := by
  simp [isClean, RunResult.diagnostics, UnitReport.isClean, List.flatMap_eq_nil_iff]

/-- The pieces under the listing: the diagnostics, then how many there are. -/
def bodyPieces (files : FileSet) (result : RunResult) : List Piece :=
  result.diagnostics.flatMap (·.pieces (some files)) ++
    Diagnostic.summaryPieces result.counts.1 result.counts.2

theorem Unescaped.bodyPieces (shown : files.Unescaped) (plain : result.Unescaped) {piece : Piece}
    (member : piece ∈ result.bodyPieces files) : Text.Unescaped piece.text := by
  rcases List.mem_append.mp member with inside | last
  · obtain ⟨diagnostic, found, member⟩ := List.mem_flatMap.mp inside
    exact (plain.diagnostics found).pieces shown member
  · exact Diagnostic.unescaped_summaryPieces _ _ piece last

theorem paintAll_bodyPieces_eq_empty_iff (files : FileSet) (result : RunResult) :
    Piece.paintAll false (result.bodyPieces files) = "" ↔ result.isClean = true := by
  rw [isClean_iff, bodyPieces]
  cases found : result.diagnostics with
  | nil =>
      have none : result.counts = (0, 0) := by simp [counts, found]
      rw [none]
      exact ⟨fun _ => rfl, fun _ => rfl⟩
  | cons first others =>
      refine ⟨fun none => ?_, fun none => absurd none (List.cons_ne_nil _ _)⟩
      rw [List.flatMap_cons, List.append_assoc, Piece.paintAll_append,
        String.append_eq_empty_iff] at none
      exact absurd none.1 (first.paintAll_pieces_ne_empty files)

end RunResult

/-- Output for people, with or without colours and the listing of verdicts. -/
structure RenderOptions.Human (options : RenderOptions) (colors facts : Bool) : Prop where
  format : options.format = .human
  color : options.color.useColors options.isTerminal = colors
  showFacts : options.showFacts = facts

theorem RenderOptions.Human.text {options : RenderOptions} {colors facts : Bool}
    (human : options.Human colors facts) (files : FileSet) (result : RunResult) :
    (result.render files options).text =
      (if facts then String.join (result.reports.map RunResult.listing) ++ "\n" else "") ++
        Piece.paintAll colors (result.bodyPieces files) := by
  rw [RunResult.render, human.format, ← human.color, ← human.showFacts]
  rfl

theorem render_human_uncolored {on off : RenderOptions} {facts : Bool}
    (colored : on.Human true facts) (uncolored : off.Human false facts) (program : Program)
    (result : RunResult) :
    (program.files.Unescaped → result.Unescaped →
      withoutSequences (result.render program.files on).text.toList =
        (result.render program.files off).text.toList) ∧
    (facts = false →
      ((result.render program.files off).text = "" ↔ result.isClean = true)) := by
  rw [colored.text, uncolored.text]
  constructor
  · intro shown plain
    have body := Piece.withoutSequences_paintAll
      (fun _ member => plain.bodyPieces shown member) true
    have listing : Unescaped
        (if facts then String.join (result.reports.map RunResult.listing) ++ "\n" else "") := by
      split
      · simp only [unescaped_append, unescaped_join, List.mem_map]
        refine ⟨?_, by decide⟩
        rintro _ ⟨report, found, rfl⟩
        exact RunResult.unescaped_listing (plain report found)
      · decide
    rw [String.toList_append, String.toList_append, withoutSequences_append listing, body]
  · rintro rfl
    simpa using result.paintAll_bodyPieces_eq_empty_iff program.files

/-- A file with one fault in its second line. -/
def Program.oneFault : Program :=
  { files := FileSet.ofList [("svc/é.go", "package é\n\treturn nil, err \n")] }

def RunResult.oneFault : RunResult :=
  { reports := [{
      unit := "svc"
      verdicts := [⟨"Load", none, .naked, ⟨13, 14⟩⟩]
      diagnostics := [{
        code := .e1003
        severity := .error
        message := DiagnosticCode.e1003.summary
        labels := [⟨⟨13, 14⟩, "returned here", true⟩, ⟨⟨90, 91⟩, "from here", false⟩]
        notes := ["in function Load"]
        suggestions := ["wrap the error"] }] }]
    facts := .empty }

theorem RunResult.oneFault_uncolored :
    ((oneFault.render Program.oneFault.files ⟨.human, .auto, true, true⟩).text ≠
        (oneFault.render Program.oneFault.files ⟨.human, .never, true, true⟩).text ∧
      withoutSequences
          (oneFault.render Program.oneFault.files ⟨.human, .auto, true, true⟩).text.toList =
        (oneFault.render Program.oneFault.files ⟨.human, .never, true, true⟩).text.toList) ∧
    oneFault.isClean = false ∧
      (oneFault.render Program.oneFault.files ⟨.human, .never, true, false⟩).text ≠ "" := by
  have files : Program.oneFault.files.Unescaped := by
    rw [FileSet.Unescaped]
    decide
  have diagnostics : ∀ diagnostic ∈ oneFault.diagnostics, diagnostic.Unescaped := by
    intro diagnostic member
    obtain rfl := List.mem_singleton.mp member
    exact ⟨by decide, by decide, by decide, by decide⟩
  have result : oneFault.Unescaped := by
    intro report member
    obtain rfl := List.mem_singleton.mp member
    exact ⟨by decide, by decide, diagnostics⟩
  have colored (facts : Bool) : RenderOptions.Human ⟨.human, .auto, true, facts⟩ true facts :=
    ⟨rfl, rfl, rfl⟩
  have uncolored (facts : Bool) :
      RenderOptions.Human ⟨.human, .never, true, facts⟩ false facts :=
    ⟨rfl, rfl, rfl⟩
  have listed := render_human_uncolored (colored true) (uncolored true) Program.oneFault oneFault
  have short := render_human_uncolored (colored false) (uncolored false) Program.oneFault oneFault
  refine ⟨⟨by decide +kernel, listed.1 files result⟩, rfl, fun empty => ?_⟩
  exact absurd ((short.2 rfl).mp empty) (by decide)

end ErrorWrapping
