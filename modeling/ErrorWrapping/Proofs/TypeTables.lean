import ErrorWrapping.Dump.Lower
import ErrorWrapping.Proofs.Catalogs

/-
Type tables that grow.

A type is entered after the types it is made of, so each of them has a smaller number and a chain
of declared types cannot run in a circle. Resolving a name gives a type of the table, and what was
in the table before stays where it was.
-/

namespace ErrorWrapping

/-- The types that a form is made of. -/
def TypeForm.parts : TypeForm → List TypeId
  | .named _ underlying => [underlying]
  | .pointer target => [target]
  | .tuple elements => elements
  | .func params results => params ++ results
  | _ => []

namespace TypeTable

/-- The invalid type and `error` are there, and every type is made of earlier ones. -/
structure Ordered (table : TypeTable) : Prop where
  invalid : table.get? .invalid = some .invalid
  predeclared : TypeId.error.index < table.size
  earlier : ∀ (id : TypeId) (form : TypeForm), table.get? id = some form →
    ∀ part ∈ form.parts, part.index < id.index

/-- A type is found in or added to an ordered table, which stays ordered. -/
structure Enters (before : TypeTable) (result : TypeId × TypeTable) : Prop where
  ordered : result.2.Ordered
  grows : before.size ≤ result.2.size
  present : result.1.index < result.2.size

variable {table : TypeTable}

theorem forms_initial : initial.forms = #[.invalid, .error] := by
  simp [forms, initial, Catalog.enter, CatalogEntries.enter, Catalog.empty, CatalogEntries.empty]

theorem get?_initial (id : TypeId) :
    initial.get? id = #[TypeForm.invalid, .error][id.index]? := by
  rw [get?, forms_initial]

theorem ordered_initial : initial.Ordered := by
  refine ⟨get?_initial .invalid, ?_, fun id form found part => ?_⟩
  · rw [size, forms_initial]
    decide
  · rw [get?_initial] at found
    match id with
    | ⟨0⟩ => cases found; intro impossible; cases impossible
    | ⟨1⟩ => cases found; intro impossible; cases impossible
    | ⟨_ + 2⟩ => cases found

theorem Ordered.invalid_lt (ordered : table.Ordered) : TypeId.invalid.index < table.size :=
  Nat.lt_trans Nat.zero_lt_one ordered.predeclared

/-- A form that is in the table keeps its number, any other one is put at the end. -/
theorem enter_cases (table : TypeTable) (form : TypeForm) :
    (∃ id, table.get? id = some form ∧ table.enter form = (id, table)) ∨
      (∀ id, table.get? id ≠ some form) ∧ (table.enter form).1 = ⟨table.size⟩ ∧
        (table.enter form).2.forms = table.forms.push form := by
  obtain ⟨number, found, entered⟩ | ⟨fresh, last, items⟩ := table.catalog.enter_cases form
  · exact Or.inl ⟨⟨number⟩, found, by rw [enter, entered]⟩
  · exact Or.inr ⟨fun id => fresh id.index, congrArg TypeId.mk last, items⟩

theorem enter_of_get? {id : TypeId} {form : TypeForm} (found : table.get? id = some form) :
    table.enter form = (id, table) := by
  have entered : table.catalog.enter form = (id.index, table.catalog) :=
    Catalog.enter_of_item? found
  rw [enter, entered]

theorem get?_enter (table : TypeTable) (form : TypeForm) :
    (table.enter form).2.get? (table.enter form).1 = some form :=
  table.catalog.item?_enter form

theorem lt_size_of_get? {id : TypeId} {form : TypeForm} (found : table.get? id = some form) :
    id.index < table.size :=
  (Array.getElem?_eq_some_iff.mp found).1

theorem Ordered.enter (ordered : table.Ordered) {form : TypeForm}
    (present : ∀ part ∈ form.parts, part.index < table.size) : table.Enters (table.enter form) := by
  obtain ⟨id, found, entered⟩ | ⟨_, last, forms⟩ := table.enter_cases form
  · rw [entered]
    exact ⟨ordered, Nat.le_refl _, lt_size_of_get? found⟩
  · have grown : (table.enter form).2.size = table.size + 1 := by
      rw [size, forms, Array.size_push]
      rfl
    refine ⟨⟨?_, ?_, fun id other found => ?_⟩, ?_, ?_⟩
    · have inside : TypeId.invalid.index ≠ table.forms.size := Nat.ne_of_lt ordered.invalid_lt
      rw [get?, forms, Array.getElem?_push, if_neg inside]
      exact ordered.invalid
    · rw [grown]
      exact Nat.lt_succ_of_lt ordered.predeclared
    · rw [get?, forms, Array.getElem?_push] at found
      split at found
      · rename_i atEnd
        cases found
        rw [atEnd]
        exact present
      · exact ordered.earlier id other found
    · rw [grown]
      exact Nat.le_succ _
    · rw [grown, last]
      exact Nat.lt_succ_self _

theorem Ordered.resultsType (ordered : table.Ordered) {results : List TypeId}
    (present : ∀ id ∈ results, id.index < table.size) :
    table.Enters (table.resultsType results) := by
  unfold TypeTable.resultsType
  split
  · exact ⟨ordered, Nat.le_refl _, ordered.invalid_lt⟩
  · exact ⟨ordered, Nat.le_refl _, present _ (List.mem_singleton.mpr rfl)⟩
  · exact ordered.enter present

end TypeTable

/-- The results of every symbol are types of the table. -/
def SymbolTable.Typed (symbols : SymbolTable) (types : TypeTable) : Prop :=
  ∀ (id : SymbolId) (symbol : Symbol), symbols.get? id = some symbol →
    ∀ result ∈ symbol.results, result.index < types.size

namespace Dump

namespace TypeNames

variable {names : TypeNames}

/-- The table is ordered, and every name that was resolved stands for a type of it. -/
structure Ordered (names : TypeNames) : Prop where
  types : names.types.Ordered
  known : ∀ (name : String) (id : TypeId), names.known[name]? = some id →
    id.index < names.types.size

/-- A name is resolved to a type of the table. -/
structure Enters (before : TypeNames) (result : TypeId × TypeNames) : Prop where
  ordered : result.2.Ordered
  grows : before.types.size ≤ result.2.types.size
  present : result.1.index < result.2.types.size

theorem ordered_initial : initial.Ordered :=
  ⟨TypeTable.ordered_initial, fun _ _ found => by simp [initial] at found⟩

theorem Ordered.enters_of_lt (ordered : names.Ordered) {id : TypeId}
    (present : id.index < names.types.size) : names.Enters (id, names) :=
  ⟨ordered, Nat.le_refl _, present⟩

theorem Ordered.withTypes (ordered : names.Ordered) {types : TypeTable} (also : types.Ordered)
    (grows : names.types.size ≤ types.size) : { names with types }.Ordered :=
  ⟨also, fun name id found => Nat.lt_of_lt_of_le (ordered.known name id found) grows⟩

theorem Ordered.enter (ordered : names.Ordered) {form : TypeForm}
    (present : ∀ part ∈ form.parts, part.index < names.types.size) :
    names.Enters (names.enter form) := by
  obtain ⟨types, grows, known⟩ := ordered.types.enter present
  exact ⟨ordered.withTypes types grows, grows, known⟩

theorem Enters.remember {result : TypeId × TypeNames} (enters : names.Enters result)
    (name : String) : names.Enters (TypeNames.remember name result) := by
  refine ⟨⟨enters.ordered.types, fun other id found => ?_⟩, enters.grows, enters.present⟩
  rw [TypeNames.remember, Std.HashMap.getElem?_insert] at found
  split at found
  · cases found
    exact enters.present
  · exact enters.ordered.known other id found

/-- A form made of the type that was resolved. -/
theorem Enters.enter {result : TypeId × TypeNames} (enters : names.Enters result)
    {form : TypeForm} (parts : form.parts = [result.1]) :
    names.Enters (result.2.enter form) := by
  have present : ∀ part ∈ form.parts, part.index < result.2.types.size := by
    rw [parts]
    intro part member
    cases List.mem_singleton.mp member
    exact enters.present
  have later := enters.ordered.enter present
  exact ⟨later.ordered, Nat.le_trans enters.grows later.grows, later.present⟩

end TypeNames

theorem enters_resolveUndeclared {names : TypeNames} (ordered : names.Ordered) (name : String) :
    names.Enters (resolveUndeclared name names) := by
  unfold resolveUndeclared
  split
  · exact ordered.enter fun _ impossible => by cases impossible
  · split
    · exact ordered.enter fun _ impossible => by cases impossible
    · exact ⟨⟨ordered.types, ordered.known⟩, Nat.le_refl _, ordered.types.invalid_lt⟩

theorem enters_resolve (decls : List TypeDecl) (busy : List String) (spelling : String)
    {names : TypeNames} (ordered : names.Ordered) :
    names.Enters (resolve decls busy spelling names) := by
  fun_induction resolve decls busy spelling names with
  | case1 => exact ordered.enters_of_lt ordered.types.predeclared
  | case2 busy spelling name _ id known =>
      exact ordered.enters_of_lt (ordered.known _ _ known)
  | case3 =>
      exact ⟨⟨ordered.types, ordered.known⟩, Nat.le_refl _, ordered.types.invalid_lt⟩
  | case4 busy spelling name _ _ decl found _ ih =>
      apply TypeNames.Enters.remember
      cases decl with
      | basic => exact ordered.enter fun _ impossible => by cases impossible
      | named other underlying => exact (ih other underlying found).enter rfl
      | interface other methods =>
          have inner : names.Enters (names.enter (.interface methods)) :=
            ordered.enter fun _ impossible => by cases impossible
          exact inner.enter rfl
      | struct =>
          have inner : names.Enters (names.enter .struct) :=
            ordered.enter fun _ impossible => by cases impossible
          exact inner.enter rfl
  | case5 busy spelling name _ _ _ ih =>
      apply TypeNames.Enters.remember
      split
      · rename_i target pointer
        exact (ih target pointer).enter rfl
      · exact enters_resolveUndeclared ordered _

/-! ### Symbols -/

/-- Every key stands for a symbol, and every symbol is typed. -/
structure SymbolNames.Ordered (state : SymbolNames) : Prop where
  names : state.names.Ordered
  typed : state.symbols.Typed state.names.types
  ids : ∀ (key : String) (id : SymbolId), state.ids[key]? = some id →
    id.index < state.symbols.size

theorem enters_resolveAll (decls : List TypeDecl) (spellings : List String) {names : TypeNames}
    (ordered : names.Ordered) :
    (resolveAll decls spellings names).2.Ordered ∧
      names.types.size ≤ (resolveAll decls spellings names).2.types.size ∧
      ∀ id ∈ (resolveAll decls spellings names).1,
        id.index < (resolveAll decls spellings names).2.types.size := by
  induction spellings generalizing names with
  | nil => exact ⟨ordered, Nat.le_refl _, fun _ impossible => by cases impossible⟩
  | cons spelling rest ih =>
      have first := enters_resolve decls [] spelling ordered
      obtain ⟨orderedRest, grows, present⟩ := ih first.ordered
      refine ⟨orderedRest, Nat.le_trans first.grows grows, fun id member => ?_⟩
      rcases List.mem_cons.mp member with rfl | later
      · exact Nat.lt_of_lt_of_le first.present grows
      · exact present id later

namespace SymbolNames.Ordered

variable {state : SymbolNames}

theorem register (ordered : state.Ordered) (decls : List TypeDecl) (entry : SymbolEntry) :
    (state.register decls entry).Ordered := by
  obtain ⟨names, grows, present⟩ := enters_resolveAll decls entry.results ordered.names
  refine ⟨names, fun id symbol found => ?_, fun key id found => ?_⟩
  · simp only [SymbolNames.register, SymbolTable.add, SymbolTable.get?, Array.getElem?_push]
      at found
    split at found
    · cases found
      exact present
    · exact fun result member =>
        Nat.lt_of_lt_of_le (ordered.typed id symbol found result member) grows
  · have size : (state.register decls entry).symbols.size = state.symbols.size + 1 :=
      Array.size_push ..
    rw [size]
    simp only [SymbolNames.register, Std.HashMap.getElem?_insert] at found
    split at found
    · cases found
      exact Nat.lt_succ_self _
    · exact Nat.lt_succ_of_lt (ordered.ids key id found)

theorem addEntry (ordered : state.Ordered) (decls : List TypeDecl) (entry : SymbolEntry) :
    (state.addEntry decls entry).Ordered := by
  have registered := ordered.register decls entry
  simp only [SymbolNames.addEntry]
  split
  · exact ⟨⟨registered.names.types, registered.names.known⟩, registered.typed, registered.ids⟩
  · exact registered

theorem addDeclared (ordered : state.Ordered) (decls : List TypeDecl) (package : String)
    (function : Signature) : (state.addDeclared decls package function).Ordered := by
  unfold SymbolNames.addDeclared
  split
  · exact ordered
  · exact ordered.register decls _

end SymbolNames.Ordered

theorem ordered_lowerSymbols (dump : Dump) : (lowerSymbols dump).Ordered := by
  refine List.foldlRecOn dump.units _ ?_ fun state ordered unit _ => ?_
  · refine List.foldlRecOn dump.symbols _ ?_ fun state ordered entry _ =>
      ordered.addEntry dump.types entry
    refine ⟨TypeNames.ordered_initial, fun _ _ found => ?_, fun _ _ found => ?_⟩
    · simp [SymbolTable.get?, SymbolTable.empty] at found
    · simp at found
  · exact List.foldlRecOn (unit.functions.map (·.signature)) _ ordered
      fun state ordered function _ => ordered.addDeclared dump.types unit.path function

end Dump

end ErrorWrapping
