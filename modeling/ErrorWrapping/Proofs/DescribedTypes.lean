import ErrorWrapping.Proofs.SpelledTypes
import Mathlib.Logic.Relation

/-
Types written out.

A type of the table can be written out by following the numbers that it is made of, and so can a
name by following the declarations. Names whose declarations run in a circle have no such form,
all other names have exactly one. Whatever was resolved before, a name that has one is resolved to
a number that is written out the same way; where a circle is cut does not show in it.
-/

namespace ErrorWrapping

/-- A type without numbers. -/
inductive FullType where
  | invalid
  | error
  | basic (name : String)
  | named (name : String) (underlying : FullType)
  | interface (methods : List String)
  | struct
  | pointer (target : FullType)
  deriving DecidableEq

namespace TypeTable

/-- A number of the table and its type written out. No name stands for a tuple or a function, so
these are left out. -/
inductive Unfolds (table : TypeTable) : TypeId → FullType → Prop
  | invalid {id : TypeId} (found : table.get? id = some .invalid) : Unfolds table id .invalid
  | error {id : TypeId} (found : table.get? id = some .error) : Unfolds table id .error
  | basic {id : TypeId} {name : String} (found : table.get? id = some (.basic name)) :
      Unfolds table id (.basic name)
  | named {id underlying : TypeId} {name : String} {full : FullType}
      (found : table.get? id = some (.named name underlying))
      (inner : Unfolds table underlying full) : Unfolds table id (.named name full)
  | interface {id : TypeId} {methods : List String}
      (found : table.get? id = some (.interface methods)) : Unfolds table id (.interface methods)
  | struct {id : TypeId} (found : table.get? id = some .struct) : Unfolds table id .struct
  | pointer {id target : TypeId} {full : FullType}
      (found : table.get? id = some (.pointer target)) (inner : Unfolds table target full) :
      Unfolds table id (.pointer full)

variable {table before after : TypeTable} {id : TypeId} {full other : FullType}

theorem Unfolds.unique (one : table.Unfolds id full) (two : table.Unfolds id other) :
    other = full := by
  induction one generalizing other with
  | named found inner ih =>
      cases two with
      | named again inner' =>
          cases found.symm.trans again
          rw [ih inner']
      | _ again => cases found.symm.trans again
  | pointer found inner ih =>
      cases two with
      | pointer again inner' =>
          cases found.symm.trans again
          rw [ih inner']
      | _ again => cases found.symm.trans again
  | _ found =>
      cases two with
      | _ again => cases found.symm.trans again <;> rfl

theorem Unfolds.mono (unfolds : before.Unfolds id full) (precedes : before.Precedes after) :
    after.Unfolds id full := by
  induction unfolds with
  | invalid found => exact .invalid (precedes.get?_some found)
  | error found => exact .error (precedes.get?_some found)
  | basic found => exact .basic (precedes.get?_some found)
  | named found _ ih => exact .named (precedes.get?_some found) ih
  | interface found => exact .interface (precedes.get?_some found)
  | struct found => exact .struct (precedes.get?_some found)
  | pointer found _ ih => exact .pointer (precedes.get?_some found) ih

end TypeTable

namespace Dump

/-- A name of a type that is there without a declaration, or the spelling of a composite type. -/
def Builtin (name : String) : Prop :=
  name ∈ predeclared ∨ ∃ start ∈ compositeStarts, start.toList <+: name.toList

instance (name : String) : Decidable (Builtin name) :=
  inferInstanceAs (Decidable (_ ∨ _))

/-- The type of a name that is neither declared nor a pointer. -/
def plainType (name : String) : FullType :=
  if name = "any" ∨ name = "interface\x7b\x7d" then .interface []
  else if Builtin name then .basic name
  else .invalid

/-- A name and the type that the declarations describe for it. `error` comes before every
declaration, a declaration before every other reading of the name. -/
inductive Describes (decls : List TypeDecl) : String → FullType → Prop
  | error : Describes decls "error" .error
  | basic {name other : String} (notError : name ≠ "error")
      (found : declaration? decls name = some (.basic other)) : Describes decls name (.basic name)
  | named {name other underlying : String} {full : FullType} (notError : name ≠ "error")
      (found : declaration? decls name = some (.named other underlying))
      (inner : Describes decls (Text.trim underlying) full) :
      Describes decls name (.named name full)
  | interface {name other : String} {methods : List String} (notError : name ≠ "error")
      (found : declaration? decls name = some (.interface other methods)) :
      Describes decls name (.named name (.interface methods))
  | struct {name other : String} (notError : name ≠ "error")
      (found : declaration? decls name = some (.struct other)) :
      Describes decls name (.named name .struct)
  | pointer {name : String} {target : List Char} {full : FullType}
      (undeclared : declaration? decls name = none) (pointer : name.toList = '*' :: target)
      (inner : Describes decls (Text.trim (String.ofList target)) full) :
      Describes decls name (.pointer full)
  | plain {name : String} (notError : name ≠ "error") (undeclared : declaration? decls name = none)
      (notPointer : ∀ target, name.toList ≠ '*' :: target) : Describes decls name (plainType name)

/-- A name and the name that its type is made of: what it is declared as, or what it points to. -/
inductive Refers (decls : List TypeDecl) : String → String → Prop
  | underlying {name other underlying : String} (notError : name ≠ "error")
      (found : declaration? decls name = some (.named other underlying)) :
      Refers decls name (Text.trim underlying)
  | target {name : String} {target : List Char} (undeclared : declaration? decls name = none)
      (pointer : name.toList = '*' :: target) :
      Refers decls name (Text.trim (String.ofList target))

/-- A name that neither lies on a circle of declarations nor leads into one. -/
def OffCircles (decls : List TypeDecl) (name : String) : Prop :=
  ∀ next, Relation.ReflTransGen (Refers decls) name next →
    ¬ Relation.TransGen (Refers decls) next next

variable {decls : List TypeDecl} {name : String} {full : FullType}

theorem Refers.of_declared {next : String} {decl : TypeDecl} (refers : Refers decls name next)
    (found : declaration? decls name = some decl) :
    ∃ other underlying, decl = .named other underlying ∧ next = Text.trim underlying := by
  cases refers with
  | underlying _ again =>
      cases found.symm.trans again
      exact ⟨_, _, rfl, rfl⟩
  | target undeclared _ => cases found.symm.trans undeclared

theorem Refers.of_undeclared {next : String} (refers : Refers decls name next)
    (undeclared : declaration? decls name = none) :
    ∃ target, name.toList = '*' :: target ∧ next = Text.trim (String.ofList target) := by
  cases refers with
  | underlying _ found => cases found.symm.trans undeclared
  | target _ pointer => exact ⟨_, pointer, rfl⟩

theorem OffCircles.next {next : String} (off : OffCircles decls name)
    (refers : Refers decls name next) : OffCircles decls next :=
  fun last reach => off last (reach.head refers)

/-- A name is off the circles if the name that it refers to is. -/
theorem offCircles_of_next (inner : ∀ next, Refers decls name next → OffCircles decls next) :
    OffCircles decls name := by
  intro last reach circle
  rcases reach.cases_head with rfl | ⟨next, refers, further⟩
  · obtain ⟨next, refers, back⟩ := Relation.TransGen.head'_iff.mp circle
    exact inner next refers name back circle
  · exact inner next refers last further circle

theorem Describes.offCircles (describes : Describes decls name full) : OffCircles decls name := by
  induction describes with
  | error =>
      refine offCircles_of_next fun next refers => ?_
      cases refers with
      | underlying notError _ => exact absurd rfl notError
      | target _ pointer => cases pointer
  | named _ found _ ih =>
      refine offCircles_of_next fun next refers => ?_
      obtain ⟨_, _, same, rfl⟩ := refers.of_declared found
      cases same
      exact ih
  | pointer undeclared pointer _ ih =>
      refine offCircles_of_next fun next refers => ?_
      obtain ⟨_, again, rfl⟩ := refers.of_undeclared undeclared
      cases pointer.symm.trans again
      exact ih
  | plain _ undeclared notPointer =>
      refine offCircles_of_next fun next refers => ?_
      obtain ⟨target, pointer, _⟩ := refers.of_undeclared undeclared
      exact absurd pointer (notPointer target)
  | _ _ found =>
      refine offCircles_of_next fun next refers => ?_
      obtain ⟨_, _, same, _⟩ := refers.of_declared found
      cases same

theorem Describes.of_named {other underlying : String} (describes : Describes decls name full)
    (notError : name ≠ "error") (found : declaration? decls name = some (.named other underlying)) :
    ∃ inner, full = .named name inner ∧ Describes decls (Text.trim underlying) inner := by
  cases describes with
  | error => exact absurd rfl notError
  | named _ again inner =>
      cases found.symm.trans again
      exact ⟨_, rfl, inner⟩
  | pointer undeclared => cases found.symm.trans undeclared
  | plain _ undeclared => cases found.symm.trans undeclared
  | _ _ again => cases found.symm.trans again

theorem Describes.of_pointer {target : List Char} (describes : Describes decls name full)
    (undeclared : declaration? decls name = none) (pointer : name.toList = '*' :: target) :
    ∃ inner, full = .pointer inner ∧ Describes decls (Text.trim (String.ofList target)) inner := by
  cases describes with
  | error => cases pointer
  | pointer _ again inner =>
      cases pointer.symm.trans again
      exact ⟨_, rfl, inner⟩
  | plain _ _ notPointer => exact absurd pointer (notPointer _)
  | _ _ found => cases found.symm.trans undeclared

theorem Describes.unique {other : FullType} (one : Describes decls name full)
    (two : Describes decls name other) : other = full := by
  induction one generalizing other with
  | named notError found _ ih =>
      obtain ⟨inner, rfl, described⟩ := two.of_named notError found
      rw [ih described]
  | pointer undeclared pointer _ ih =>
      obtain ⟨inner, rfl, described⟩ := two.of_pointer undeclared pointer
      rw [ih described]
  | error =>
      cases two with
      | error => rfl
      | pointer _ pointer => cases pointer
      | _ notError => exact absurd rfl notError
  | plain notError undeclared notPointer =>
      cases two with
      | error => exact absurd rfl notError
      | pointer _ pointer => exact absurd pointer (notPointer _)
      | plain => rfl
      | _ _ found => cases found.symm.trans undeclared
  | _ notError found =>
      cases two with
      | error => exact absurd rfl notError
      | pointer undeclared => cases found.symm.trans undeclared
      | plain _ undeclared => cases found.symm.trans undeclared
      | _ _ again => cases found.symm.trans again <;> rfl

/-- What leads to a name leads to the name that it refers to, and so does the name itself. -/
theorem leads_cons {busy : List String} {next : String} (refers : Refers decls name next)
    (leads : ∀ first ∈ busy, Relation.TransGen (Refers decls) first name) :
    ∀ first ∈ name :: busy, Relation.TransGen (Refers decls) first next :=
  List.forall_mem_cons.mpr ⟨.single refers, fun first member => (leads first member).tail refers⟩

/-- A name off the circles is described. The calls of the resolver say which name to look at
next; a name that is met again would lie on a circle. -/
theorem exists_describes (busy : List String) (spelling : String)
    (off : OffCircles decls (Text.trim spelling))
    (leads : ∀ first ∈ busy, Relation.TransGen (Refers decls) first (Text.trim spelling)) :
    ∃ full, Describes decls (Text.trim spelling) full := by
  fun_induction resolve decls busy spelling .initial with
  | case1 busy spelling name isError =>
      rw [show Text.trim spelling = "error" from isError]
      exact ⟨_, .error⟩
  | case2 busy spelling name notError id known => simp [TypeNames.initial] at known
  | case3 busy spelling name notError unknown decl found inBusy =>
      exact absurd (leads name inBusy) (off name .refl)
  | case4 busy spelling name notError unknown decl found notBusy ih =>
      cases decl with
      | basic => exact ⟨_, .basic notError found⟩
      | interface => exact ⟨_, .interface notError found⟩
      | struct => exact ⟨_, .struct notError found⟩
      | named other underlying =>
          have refers : Refers decls name (Text.trim underlying) := .underlying notError found
          obtain ⟨inner, described⟩ :=
            ih other underlying found (off.next refers) (leads_cons refers leads)
          exact ⟨_, .named notError found described⟩
  | case5 busy spelling name notError unknown undeclared ih =>
      by_cases pointer : ∃ target, name.toList = '*' :: target
      · obtain ⟨target, pointer⟩ := pointer
        have refers : Refers decls name (Text.trim (String.ofList target)) :=
          .target undeclared pointer
        obtain ⟨inner, described⟩ := ih target pointer (off.next refers) fun first member =>
          (leads first member).tail refers
        exact ⟨_, .pointer undeclared pointer described⟩
      · exact ⟨_, .plain notError undeclared fun target same => pointer ⟨target, same⟩⟩

theorem exists_describes_iff (spelling : String) :
    (∃ full, Describes decls (Text.trim spelling) full) ↔ OffCircles decls (Text.trim spelling) :=
  ⟨fun ⟨_, describes⟩ => describes.offCircles,
    fun off => exists_describes [] spelling off fun _ impossible => by cases impossible⟩

/-! ### Resolving what is described -/

/-- Every name that was resolved and is described is written out as it is described. -/
structure TypeNames.Written (decls : List TypeDecl) (names : TypeNames) : Prop where
  invalid : names.types.get? .invalid = some .invalid
  error : names.types.get? .error = some .error
  known : ∀ {name : String} {id : TypeId} {full : FullType}, names.known[name]? = some id →
    Describes decls name full → names.types.Unfolds id full

/-- The outcome of resolving a name. -/
structure Writes (decls : List TypeDecl) (name : String) (result : TypeId × TypeNames) : Prop where
  written : result.2.Written decls
  unfolds : ∀ {full : FullType}, Describes decls name full → result.2.types.Unfolds result.1 full

variable {names : TypeNames} {result : TypeId × TypeNames}

theorem TypeNames.written_initial : initial.Written decls :=
  ⟨TypeTable.get?_initial .invalid, TypeTable.get?_initial .error,
    fun found => by simp [initial] at found⟩

theorem TypeNames.Written.enter (written : names.Written decls) (form : TypeForm) :
    (names.enter form).2.Written decls := by
  have precedes : names.types.Precedes (names.enter form).2.types := names.types.precedes_enter form
  exact ⟨precedes.get?_some written.invalid, precedes.get?_some written.error,
    fun found describes => (written.known found describes).mono precedes⟩

theorem Writes.remember (writes : Writes decls name result) :
    Writes decls name (TypeNames.remember name result) := by
  refine ⟨⟨writes.written.invalid, writes.written.error, fun {other id full} found describes => ?_⟩,
    writes.unfolds⟩
  rw [TypeNames.remember, Std.HashMap.getElem?_insert] at found
  split at found
  · rename_i same
    cases found
    cases beq_iff_eq.mp same
    exact writes.unfolds describes
  · exact writes.written.known found describes

/-- A name whose description is known. -/
theorem writes_of_describes (written : result.2.Written decls)
    (describes : Describes decls name full)
    (unfolds : result.2.types.Unfolds result.1 full) : Writes decls name result :=
  ⟨written, fun other => by rw [describes.unique other]; exact unfolds⟩

theorem unfolds_enter_named {id : TypeId} (name : String) (unfolds : names.types.Unfolds id full) :
    (names.enter (.named name id)).2.types.Unfolds (names.enter (.named name id)).1
      (.named name full) :=
  .named (names.types.get?_enter _) (unfolds.mono (names.types.precedes_enter _))

theorem Writes.named {other underlying : String} (notError : name ≠ "error")
    (found : declaration? decls name = some (.named other underlying))
    (writes : Writes decls (Text.trim underlying) result) :
    Writes decls name (result.2.enter (.named name result.1)) := by
  refine ⟨writes.written.enter _, fun describes => ?_⟩
  obtain ⟨inner, rfl, described⟩ := describes.of_named notError found
  exact unfolds_enter_named name (writes.unfolds described)

theorem Writes.pointer {target : List Char} (undeclared : declaration? decls name = none)
    (pointer : name.toList = '*' :: target)
    (writes : Writes decls (Text.trim (String.ofList target)) result) :
    Writes decls name (result.2.enter (.pointer result.1)) := by
  refine ⟨writes.written.enter _, fun describes => ?_⟩
  obtain ⟨inner, rfl, described⟩ := describes.of_pointer undeclared pointer
  exact .pointer (result.2.types.get?_enter _)
    ((writes.unfolds described).mono (result.2.types.precedes_enter _))

theorem builtin_iff (name : String) :
    (predeclared.contains name || compositeStarts.any (startsWith · name)) = true ↔
      Builtin name := by
  simp [Builtin, startsWith]

theorem writes_resolveUndeclared (written : names.Written decls) (notError : name ≠ "error")
    (undeclared : declaration? decls name = none)
    (notPointer : ∀ target, name.toList ≠ '*' :: target) :
    Writes decls name (resolveUndeclared name names) := by
  have describes := Describes.plain notError undeclared notPointer
  unfold plainType at describes
  unfold resolveUndeclared
  split
  · rename_i isAny
    rw [if_pos isAny] at describes
    exact writes_of_describes (written.enter _) describes (.interface (names.types.get?_enter _))
  · rename_i notAny
    rw [if_neg notAny] at describes
    split
    · rename_i known
      rw [if_pos ((builtin_iff name).mp known)] at describes
      exact writes_of_describes (written.enter _) describes (.basic (names.types.get?_enter _))
    · rename_i unknown
      rw [if_neg fun builtin => unknown ((builtin_iff name).mpr builtin)] at describes
      exact writes_of_describes ⟨written.invalid, written.error, written.known⟩ describes
        (.invalid written.invalid)

/-- Whatever was resolved before, a name that is described gets a type that is written out as it
is described. -/
theorem writes_resolve (busy : List String) (spelling : String) (written : names.Written decls)
    (leads : ∀ first ∈ busy, Relation.TransGen (Refers decls) first (Text.trim spelling)) :
    Writes decls (Text.trim spelling) (resolve decls busy spelling names) := by
  fun_induction resolve decls busy spelling names with
  | case1 busy spelling name isError =>
      rw [show Text.trim spelling = "error" from isError]
      exact writes_of_describes written .error (.error written.error)
  | case2 busy spelling name notError id known => exact ⟨written, written.known known⟩
  | case3 busy spelling name notError unknown decl found inBusy =>
      refine ⟨⟨written.invalid, written.error, written.known⟩, fun describes => ?_⟩
      exact absurd (leads name inBusy) (describes.offCircles name .refl)
  | case4 busy spelling name notError unknown decl found notBusy ih =>
      apply Writes.remember
      cases decl with
      | basic =>
          exact writes_of_describes (written.enter _) (.basic notError found)
            (.basic (names.types.get?_enter _))
      | named other underlying =>
          have refers : Refers decls name (Text.trim underlying) := .underlying notError found
          have inner := ih other underlying found (leads_cons refers leads)
          exact inner.named notError found
      | interface other methods =>
          exact writes_of_describes ((written.enter _).enter _) (.interface notError found)
            (unfolds_enter_named name (.interface (names.types.get?_enter _)))
      | struct =>
          exact writes_of_describes ((written.enter _).enter _) (.struct notError found)
            (unfolds_enter_named name (.struct (names.types.get?_enter _)))
  | case5 busy spelling name notError unknown undeclared ih =>
      apply Writes.remember
      split
      · rename_i target pointer
        have refers : Refers decls name (Text.trim (String.ofList target)) :=
          .target undeclared pointer
        have inner := ih target pointer fun first member => (leads first member).tail refers
        exact inner.pointer undeclared pointer
      · rename_i notPointer
        exact writes_resolveUndeclared written notError undeclared notPointer

end Dump

end ErrorWrapping
