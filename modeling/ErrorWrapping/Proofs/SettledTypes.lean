import ErrorWrapping.Proofs.TypeTables

/-
Types that stay.

The type table only grows at its end, and a name that was resolved is remembered for good. So a
form that was entered has the same number in every later table, and a name that was resolved
gives the same type whenever it is resolved again.
-/

namespace ErrorWrapping

namespace TypeTable

/-- The later table holds more types at its end. -/
def Precedes (before after : TypeTable) : Prop :=
  ∃ more, after.forms = before.forms ++ more

variable {table before after : TypeTable} {form : TypeForm}

theorem Precedes.refl (table : TypeTable) : table.Precedes table :=
  ⟨#[], Array.append_empty.symm⟩

theorem Precedes.trans {last : TypeTable} (one : before.Precedes after)
    (two : after.Precedes last) : before.Precedes last := by
  obtain ⟨more, grown⟩ := one
  obtain ⟨further, again⟩ := two
  exact ⟨more ++ further, by rw [again, grown, Array.append_assoc]⟩

theorem Precedes.get? (precedes : before.Precedes after) {id : TypeId}
    (known : id.index < before.size) : after.get? id = before.get? id := by
  obtain ⟨more, grown⟩ := precedes
  rw [TypeTable.get?, grown, Array.getElem?_append_left known]
  rfl

theorem precedes_enter (table : TypeTable) (form : TypeForm) :
    table.Precedes (table.enter form).2 := by
  obtain ⟨_, _, entered⟩ | ⟨_, _, forms⟩ := table.enter_cases form
  · rw [entered]
    exact .refl table
  · exact ⟨#[form], by rw [forms, Array.push_eq_append]⟩

theorem precedes_resultsType (table : TypeTable) (results : List TypeId) :
    table.Precedes (table.resultsType results).2 := by
  unfold resultsType
  split
  · exact .refl table
  · exact .refl table
  · exact precedes_enter table _

/-- A form that was entered is found again, at the number that it got. -/
theorem enter_of_precedes (precedes : (table.enter form).2.Precedes after) :
    (after.enter form).1 = (table.enter form).1 := by
  have entered := get?_enter table form
  have stays : after.get? (table.enter form).1 = some form :=
    (precedes.get? (lt_size_of_get? entered)).trans entered
  rw [enter_of_get? stays]

theorem resultsType_of_precedes {results : List TypeId}
    (precedes : (table.resultsType results).2.Precedes after) :
    (after.resultsType results).1 = (table.resultsType results).1 := by
  match results with
  | [] => rfl
  | [single] => rfl
  | first :: second :: rest => exact enter_of_precedes precedes

end TypeTable

namespace Dump

namespace TypeNames

/-- The later names hold more types, and what was resolved is still known. -/
structure Precedes (before after : TypeNames) : Prop where
  types : before.types.Precedes after.types
  known : ∀ {name : String} {id : TypeId}, before.known[name]? = some id →
    after.known[name]? = some id

variable {names before after : TypeNames}

theorem Precedes.refl (names : TypeNames) : names.Precedes names :=
  ⟨.refl _, fun found => found⟩

theorem Precedes.trans {last : TypeNames} (one : before.Precedes after)
    (two : after.Precedes last) : before.Precedes last :=
  ⟨one.types.trans two.types, fun found => two.known (one.known found)⟩

theorem precedes_warn (names : TypeNames) (warning : Warning) :
    names.Precedes (names.warn warning) :=
  ⟨.refl _, fun found => found⟩

theorem precedes_enter (names : TypeNames) (form : TypeForm) :
    names.Precedes (names.enter form).2 :=
  ⟨names.types.precedes_enter form, fun found => found⟩

/-- A name that is remembered was not known before. -/
theorem Precedes.remember {name : String} {result : TypeId × TypeNames}
    (precedes : names.Precedes result.2) (unknown : names.known[name]? = none) :
    names.Precedes (TypeNames.remember name result).2 := by
  refine ⟨precedes.types, fun {other id} found => ?_⟩
  have differs : ¬ (name == other) = true := by
    intro same
    rw [← beq_iff_eq.mp same, unknown] at found
    cases found
  rw [TypeNames.remember, Std.HashMap.getElem?_insert, if_neg differs]
  exact precedes.known found

theorem known_remember (name : String) (result : TypeId × TypeNames) :
    (TypeNames.remember name result).2.known[name]? = some (TypeNames.remember name result).1 :=
  Std.HashMap.getElem?_insert_self

end TypeNames

theorem precedes_resolveUndeclared (name : String) (names : TypeNames) :
    names.Precedes (resolveUndeclared name names).2 := by
  unfold resolveUndeclared
  split
  · exact names.precedes_enter _
  · split
    · exact names.precedes_enter _
    · exact names.precedes_warn _

theorem precedes_resolve (decls : List TypeDecl) (busy : List String) (spelling : String)
    (names : TypeNames) : names.Precedes (resolve decls busy spelling names).2 := by
  fun_induction resolve decls busy spelling names with
  | case1 => exact .refl _
  | case2 => exact .refl _
  | case3 => exact TypeNames.precedes_warn _ _
  | case4 busy spelling name _ unknown decl found _ ih =>
      refine TypeNames.Precedes.remember ?_ unknown
      cases decl with
      | basic => exact names.precedes_enter _
      | named other underlying =>
          exact (ih other underlying found).trans (TypeNames.precedes_enter _ _)
      | interface other methods =>
          exact (names.precedes_enter (.interface methods)).trans (TypeNames.precedes_enter _ _)
      | struct =>
          exact (names.precedes_enter .struct).trans (TypeNames.precedes_enter _ _)
  | case5 busy spelling name _ unknown _ ih =>
      refine TypeNames.Precedes.remember ?_ unknown
      split
      · rename_i target pointer
        exact (ih target pointer).trans (TypeNames.precedes_enter _ _)
      · exact precedes_resolveUndeclared _ _

theorem resolve_error {decls : List TypeDecl} {spelling : String} {names : TypeNames}
    (isError : Text.trim spelling = "error") :
    (resolve decls [] spelling names).1 = .error := by
  rw [resolve, if_pos isError]

theorem resolve_known {decls : List TypeDecl} {spelling : String} {names : TypeNames}
    {id : TypeId} (notError : Text.trim spelling ≠ "error")
    (known : names.known[Text.trim spelling]? = some id) :
    (resolve decls [] spelling names).1 = id := by
  rw [resolve, if_neg notError]
  split
  · rename_i other found
    exact Option.some.inj (found.symm.trans known)
  · rename_i unknown
    rw [unknown] at known
    cases known

/-- No declaration is being resolved at the start, so whatever is resolved is remembered. -/
theorem known_resolve {decls : List TypeDecl} {spelling : String} {names : TypeNames}
    (notError : Text.trim spelling ≠ "error") :
    (resolve decls [] spelling names).2.known[Text.trim spelling]? =
      some (resolve decls [] spelling names).1 := by
  rw [resolve, if_neg notError]
  split
  · rename_i id known
    exact known
  · split
    · split
      · rename_i impossible
        cases impossible
      · exact TypeNames.known_remember _ _
    · exact TypeNames.known_remember _ _

/-- A name has the type that it was given when it was first resolved. -/
theorem resolve_of_precedes {decls : List TypeDecl} {spelling : String} {names after : TypeNames}
    (precedes : (resolve decls [] spelling names).2.Precedes after) :
    (resolve decls [] spelling after).1 = (resolve decls [] spelling names).1 := by
  by_cases isError : Text.trim spelling = "error"
  · rw [resolve_error isError, resolve_error isError]
  · exact resolve_known isError (precedes.known (known_resolve isError))

end Dump

end ErrorWrapping
