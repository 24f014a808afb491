import ErrorWrapping.NameTable
import ErrorWrapping.Proofs.TypeTables

/-
Numbers of types and names.

Two entries of a table of types, or of names, get one number exactly when the same was entered, and
a number stands for what was entered in every later state of its table. What is entered for the
first time gets the next number, and as long as there are not more than two to the thirty-two
entries that differ, all numbers have 32 bits and no name is refused. So `error` is the one type
that is `error`.
-/

namespace ErrorWrapping

/-! ### Types -/

namespace TypeTable

variable {table : TypeTable} {id : TypeId}

/-- Enters forms one after the other. -/
def enterAll (table : TypeTable) : List TypeForm → List TypeId × TypeTable
  | [] => ([], table)
  | form :: rest =>
    let (id, next) := table.enter form
    let (ids, last) := next.enterAll rest
    (id :: ids, last)

theorem enterAll_cons (table : TypeTable) (form : TypeForm) (rest : List TypeForm) :
    table.enterAll (form :: rest) =
      ((table.enter form).1 :: ((table.enter form).2.enterAll rest).1,
        ((table.enter form).2.enterAll rest).2) := rfl

theorem enterAll_eq (table : TypeTable) (forms : List TypeForm) :
    table.enterAll forms =
      ((table.catalog.enterAll forms).1.map TypeId.mk, ⟨(table.catalog.enterAll forms).2⟩) := by
  induction forms generalizing table with
  | nil => rfl
  | cons form rest ih =>
      rw [enterAll_cons, ih, Catalog.enterAll_cons]
      rfl

theorem toList_initial : initial.catalog.toList = [.invalid, .error] :=
  congrArg Array.toList forms_initial

/-- The tables that entering forms, and the results of calls, leads to. -/
inductive Reached : TypeTable → Prop where
  | initial : Reached .initial
  | enter {table : TypeTable} (form : TypeForm) : Reached table → Reached (table.enter form).2
  | resultsType {table : TypeTable} (results : List TypeId) :
      Reached table → Reached (table.resultsType results).2

theorem Reached.get?_error (reached : table.Reached) : table.get? .error = some .error := by
  induction reached with
  | initial => exact get?_initial .error
  | enter form _ ih => exact Catalog.item?_enter_of_some ih form
  | resultsType results _ ih =>
      unfold TypeTable.resultsType
      split
      · exact ih
      · exact ih
      · exact Catalog.item?_enter_of_some ih _

theorem Reached.isError_iff (reached : table.Reached) : table.isError id = true ↔ id = .error := by
  rw [isError, beq_iff_eq]
  constructor
  · intro found
    exact congrArg TypeId.mk ((Catalog.number_eq_iff found reached.get?_error).mpr rfl)
  · rintro rfl
    exact reached.get?_error

end TypeTable

/-! ### Names -/

namespace NameTable

/-- Enters texts one after the other, as long as there are numbers left. -/
def enterAll? (table : NameTable) : List String → Except NameFault (List Nat × NameTable)
  | [] => .ok ([], table)
  | text :: rest => do
    let (number, next) ← table.enter? text
    let (numbers, last) ← next.enterAll? rest
    return (number :: numbers, last)

/-- Enters texts one after the other. -/
def enterAll (table : NameTable) : List String → List Nat × NameTable
  | [] => ([], table)
  | text :: rest =>
    let (number, next) := table.enter text
    let (numbers, last) := next.enterAll rest
    (number :: numbers, last)

variable {table : NameTable}

theorem enterAll_cons (table : NameTable) (text : String) (rest : List String) :
    table.enterAll (text :: rest) =
      ((table.enter text).1 :: ((table.enter text).2.enterAll rest).1,
        ((table.enter text).2.enterAll rest).2) := rfl

/-- A text is entered if the table has room for it and for what is to follow. -/
theorem enter?_of_room {text : String} {rest : List String}
    (room : (table.catalog.toList ++ text :: rest).eraseDups.length ≤ capacity) :
    table.enter? text =
      .ok ((table.catalog.enter text).1, ⟨(table.catalog.enter text).2⟩) := by
  unfold enter?
  split
  · rename_i number known
    have found := Catalog.number?_eq_some_iff.mp known
    rw [Catalog.enter_of_item? found]
  · rename_i unknown
    have fresh : text ∉ table.catalog.toList := by
      intro member
      obtain ⟨number, found⟩ := Catalog.mem_toList_iff.mp member
      rw [get?, Catalog.number?_eq_some_iff.mpr found] at unknown
      cases unknown
    have grown : (table.catalog.enter text).2.size = table.size + 1 := by
      rw [← Catalog.length_toList, (Catalog.enter_of_not_mem fresh).2, List.length_append,
        Catalog.length_toList]
      rfl
    have fits := (table.catalog.enter text).2.size_le_length_eraseDups rest
    rw [Catalog.eraseDups_toList_enter, grown] at fits
    rw [if_pos (Nat.lt_of_lt_of_le fits room)]

theorem enterAll?_eq {texts : List String}
    (room : (table.catalog.toList ++ texts).eraseDups.length ≤ capacity) :
    table.enterAll? texts =
      .ok ((table.catalog.enterAll texts).1, ⟨(table.catalog.enterAll texts).2⟩) := by
  induction texts generalizing table with
  | nil => rfl
  | cons text rest ih =>
      have roomNext : ((table.catalog.enter text).2.toList ++ rest).eraseDups.length ≤ capacity := by
        rw [Catalog.eraseDups_toList_enter]
        exact room
      have later := @ih ⟨(table.catalog.enter text).2⟩ roomNext
      rw [enterAll?, enter?_of_room room]
      change (enterAll? ⟨(table.catalog.enter text).2⟩ rest >>= _) = _
      rw [later]
      rfl

theorem enterAll_of_enterAll? {texts : List String} {numbers : List Nat} {last : NameTable}
    (entered : table.enterAll? texts = .ok (numbers, last)) :
    table.enterAll texts = (numbers, last) := by
  induction texts generalizing table numbers with
  | nil => exact Except.ok.inj entered
  | cons text rest ih =>
      rw [enterAll?] at entered
      cases first : table.enter? text with
      | error fault =>
          rw [first] at entered
          cases entered
      | ok step =>
          rw [first] at entered
          change (step.2.enterAll? rest >>= _) = _ at entered
          cases others : step.2.enterAll? rest with
          | error fault =>
              rw [others] at entered
              cases entered
          | ok result =>
              rw [others] at entered
              cases entered
              have same : table.enter text = step := by rw [enter, first]
              rw [enterAll_cons, same, ih others]

theorem toList_initial : initial.catalog.toList = [""] := by
  cbv

theorem enterAll_eq {texts : List String}
    (room : (table.catalog.toList ++ texts).eraseDups.length ≤ capacity) :
    table.enterAll texts =
      ((table.catalog.enterAll texts).1, ⟨(table.catalog.enterAll texts).2⟩) :=
  enterAll_of_enterAll? (enterAll?_eq room)

/-- A text stays at its number, also when the table is full. -/
theorem item?_enter_of_some {text other : String} {number : Nat}
    (found : table.catalog.item? number = some other) :
    (table.enter text).2.catalog.item? number = some other := by
  unfold enter enter?
  cases table.get? text with
  | some known => exact found
  | none =>
      by_cases room : table.size < capacity
      · simp only [if_pos room]
        exact Catalog.item?_enter_of_some found text
      · simp only [if_neg room]
        exact found

theorem item?_enterAll_of_some {other : String} {number : Nat}
    (found : table.catalog.item? number = some other) (texts : List String) :
    (table.enterAll texts).2.catalog.item? number = some other := by
  induction texts generalizing table with
  | nil => exact found
  | cons text rest ih => exact ih (item?_enter_of_some found)

/-- What is promised of the names of a history: `numbers` are those of `texts`, `table` is the
table after them, and `later` is one that came of it. -/
structure Keeps (texts : List String) (numbers : List Nat) (table later : NameTable) : Prop where
  apart : Catalog.Numbers id [""] texts numbers fun number => some (later.text number)
  fits : ∀ number ∈ numbers, number < UInt32.size
  finds : ∀ entry ∈ texts.zip numbers, later.get? entry.1 = some entry.2
  unknown : ∀ text, table.get? text = none ↔ text ∉ "" :: texts

theorem keeps_enterAll {texts : List String} (further : List String)
    (few : ("" :: texts).eraseDups.length ≤ UInt32.size) :
    Keeps texts (initial.enterAll texts).1 (initial.enterAll texts).2
      ((initial.enterAll texts).2.enterAll further).2 := by
  have room : (initial.catalog.toList ++ texts).eraseDups.length ≤ capacity := by
    rw [toList_initial]
    exact few
  have entered := enterAll_eq room
  have stays : ∀ (number : Nat) (text : String),
      (initial.catalog.enterAll texts).2.item? number = some text →
      ((initial.enterAll texts).2.enterAll further).2.catalog.item? number = some text := by
    intro number text found
    rw [entered]
    exact item?_enterAll_of_some found further
  refine ⟨?_, fun number member => ?_, fun entry member => ?_, fun text => ?_⟩
  · have apart : Catalog.Numbers id initial.catalog.toList texts
        ((initial.catalog.enterAll texts).1.map id) fun number =>
          some (((initial.enterAll texts).2.enterAll further).2.text number) := by
      refine initial.catalog.numbers_enterAll Function.injective_id texts fun number text found => ?_
      have stayed := stays number text found
      exact congrArg (fun shown => some (Option.getD shown "")) stayed
    rw [toList_initial, List.map_id, ← congrArg Prod.fst entered] at apart
    exact apart
  · rw [entered] at member
    have inside := Catalog.lt_of_mem_enterAll member
    rw [toList_initial] at inside
    exact Nat.lt_of_lt_of_le inside few
  · rw [congrArg Prod.fst entered] at member
    have found := (List.forall₂_iff_zip.mp (initial.catalog.item?_enterAll texts)).2 member
    exact Catalog.number?_eq_some_iff.mpr (stays _ _ found)
  · have listed : text ∈ "" :: texts ↔ ∃ number,
        (initial.catalog.enterAll texts).2.item? number = some text := by
      rw [← Catalog.mem_toList_iff, Catalog.toList_enterAll, List.mem_eraseDups, toList_initial]
      rfl
    rw [listed, entered, get?, Option.eq_none_iff_forall_ne_some, not_exists]
    exact forall_congr' fun number => not_congr Catalog.number?_eq_some_iff

end NameTable

/-- However forms and texts are entered, each gets one number, which stands for it ever after. No
two of them share a number, a new one gets the next number, and those that are there from the start
keep theirs; so `error` is the one type that is `error`. With no more than two to the thirty-two of
them all numbers have 32 bits, and no text is refused. -/
theorem numbers_tell_apart :
    (∀ forms further : List TypeForm,
      (TypeForm.invalid :: .error :: forms).eraseDups.length ≤ UInt32.size →
      Catalog.Numbers TypeId.mk [.invalid, .error] forms (TypeTable.initial.enterAll forms).1
          ((TypeTable.initial.enterAll forms).2.enterAll further).2.get? ∧
        ∀ id ∈ (TypeTable.initial.enterAll forms).1, id.index < UInt32.size) ∧
      (∀ table : TypeTable, table.Reached → ∀ id, table.isError id = true ↔ id = .error) ∧
      ∀ texts further : List String, ("" :: texts).eraseDups.length ≤ UInt32.size →
        NameTable.initial.enterAll? texts = .ok (NameTable.initial.enterAll texts) ∧
          NameTable.Keeps texts (NameTable.initial.enterAll texts).1
            (NameTable.initial.enterAll texts).2
            ((NameTable.initial.enterAll texts).2.enterAll further).2 := by
  refine ⟨fun forms further few => ⟨?_, fun id member => ?_⟩,
    fun table reached id => reached.isError_iff, fun texts further few => ⟨?_, ?_⟩⟩
  · rw [TypeTable.enterAll_eq, TypeTable.enterAll_eq, ← TypeTable.toList_initial]
    exact TypeTable.initial.catalog.numbers_enterAll (fun _ _ same => TypeId.mk.inj same) forms
      fun number form found => Catalog.item?_enterAll_of_some found further
  · rw [TypeTable.enterAll_eq] at member
    obtain ⟨number, given, rfl⟩ := List.mem_map.mp member
    have inside := Catalog.lt_of_mem_enterAll given
    rw [TypeTable.toList_initial] at inside
    exact Nat.lt_of_lt_of_le inside few
  · have room : (NameTable.initial.catalog.toList ++ texts).eraseDups.length ≤
        NameTable.capacity := by
      rw [NameTable.toList_initial]
      exact few
    rw [NameTable.enterAll?_eq room, NameTable.enterAll_eq room]
  · exact NameTable.keeps_enterAll further few

namespace repeatedEntries

def forms : List TypeForm := [.struct, .pointer ⟨2⟩, .error, .struct, .named "T" ⟨3⟩]

def texts : List String := ["err", "Marshal", "", "err"]

/-- The type table after the forms, and one more for the results of a call. -/
def types : TypeTable := ((TypeTable.initial.enterAll forms).2.enterAll [.tuple [⟨1⟩, ⟨2⟩]]).2

def names : NameTable := ((NameTable.initial.enterAll texts).2.enterAll ["json"]).2

theorem numbered :
    (TypeForm.invalid :: .error :: forms).eraseDups.length ≤ UInt32.size ∧
      Catalog.Numbers TypeId.mk [.invalid, .error] forms [⟨2⟩, ⟨3⟩, ⟨1⟩, ⟨2⟩, ⟨4⟩] types.get? ∧
      (TypeTable.initial.resultsType [.error, .error]).2.Reached ∧
      (∀ id, (TypeTable.initial.resultsType [.error, .error]).2.isError id = true ↔ id = .error) ∧
      ("" :: texts).eraseDups.length ≤ UInt32.size ∧
      NameTable.Keeps texts [1, 2, 0, 1] (NameTable.initial.enterAll texts).2 names := by
  have ids : (TypeTable.initial.enterAll forms).1 = [⟨2⟩, ⟨3⟩, ⟨1⟩, ⟨2⟩, ⟨4⟩] := by cbv
  have numbers : (NameTable.initial.enterAll texts).1 = [1, 2, 0, 1] := by cbv
  have few : (TypeForm.invalid :: .error :: forms).eraseDups.length ≤ UInt32.size := by decide
  have fewTexts : ("" :: texts).eraseDups.length ≤ UInt32.size := by decide
  have reached := TypeTable.Reached.initial.resultsType [.error, .error]
  obtain ⟨ofTypes, ofError, ofNames⟩ := numbers_tell_apart
  refine ⟨few, ?_, reached, ofError _ reached, fewTexts, ?_⟩
  · rw [← ids]
    exact (ofTypes forms [.tuple [⟨1⟩, ⟨2⟩]] few).1
  · rw [← numbers]
    exact (ofNames texts ["json"] fewTexts).2

end repeatedEntries

end ErrorWrapping
