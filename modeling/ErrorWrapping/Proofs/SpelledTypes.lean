import ErrorWrapping.Proofs.SettledTypes
import Mathlib.Data.List.Forall2

/-
What the checker sees of a type.

The checker asks of a type whether it is `error`, whether its underlying type is an interface, and
where the elements of a tuple are `error`. For a type that was spelled, the answers follow from the
declarations of the dump. They do not depend on what was resolved before, not even where
declarations run in a circle and the circle is cut at whichever name was met first.
-/

namespace ErrorWrapping

/-- What is asked of a type that is neither a tuple nor a function. -/
structure TypeTraits where
  isError : Bool
  isInterface : Bool
  deriving DecidableEq

/-- All that is asked of a type. -/
inductive TypeOutline where
  | plain (traits : TypeTraits)
  | tuple (elements : List TypeTraits)
  | func (results : List TypeTraits)
  deriving DecidableEq

namespace TypeOutline

def isError : TypeOutline → Bool
  | .plain traits => traits.isError
  | _ => false

def isInterface : TypeOutline → Bool
  | .plain traits => traits.isInterface
  | _ => false

def errorPositions : TypeOutline → List Nat
  | .tuple elements => TypeTable.positionsFrom TypeTraits.isError 0 elements
  | _ => []

/-- The value of a call with these results. -/
def ofResults : List TypeTraits → TypeOutline
  | [] => .plain ⟨false, false⟩
  | [single] => .plain single
  | many => .tuple many

end TypeOutline

def TypeForm.isInterface : TypeForm → Bool
  | .interface _ => true
  | .error => true
  | _ => false

def TypeForm.isNamed : TypeForm → Bool
  | .named _ _ => true
  | _ => false

/-- Neither a tuple nor a function. -/
def TypeForm.isPlain : TypeForm → Bool
  | .tuple _ => false
  | .func _ _ => false
  | _ => true

namespace TypeTable

/-- Whether following at most so many links ends at an interface. -/
def interfaceWithin (table : TypeTable) (steps : Nat) (id : TypeId) : Bool :=
  match table.get? (table.follow steps id) with
  | some (.interface _) => true
  | some .error => true
  | _ => false

def traits (table : TypeTable) (id : TypeId) : TypeTraits :=
  ⟨table.isError id, table.isInterface id⟩

/-- A type that is neither a tuple nor a function, and the answers about it. -/
structure Answers (table : TypeTable) (id : TypeId) (traits : TypeTraits) : Prop where
  plain : ∃ form, table.get? id = some form ∧ form.isPlain = true
  traits : table.traits id = traits

/-- A type of the table and all that is asked of it. -/
inductive Outlines (table : TypeTable) (id : TypeId) : TypeOutline → Prop where
  | plain {traits : TypeTraits} (answers : table.Answers id traits) :
      Outlines table id (.plain traits)
  | tuple {elements : List TypeId} {traits : List TypeTraits}
      (found : table.get? id = some (.tuple elements))
      (parts : List.Forall₂ table.Answers elements traits) : Outlines table id (.tuple traits)
  | func {params results : List TypeId} {traits : List TypeTraits}
      (found : table.get? id = some (.func params results))
      (parts : List.Forall₂ table.Answers results traits) : Outlines table id (.func traits)

variable {table before after : TypeTable} {id : TypeId} {form : TypeForm}

/-! ### Answers from the outline -/

theorem positionsFrom_of_forall₂ {α β : Type} {test : α → Bool} {check : β → Bool} {xs : List α}
    {ys : List β} (same : List.Forall₂ (fun x y => test x = check y) xs ys) (start : Nat) :
    positionsFrom test start xs = positionsFrom check start ys := by
  induction same generalizing start with
  | nil => rfl
  | cons first _ ih => simp only [positionsFrom, first, ih]

theorem Answers.isError {traits : TypeTraits} (answers : table.Answers id traits) :
    table.isError id = traits.isError :=
  congrArg TypeTraits.isError answers.traits

theorem Answers.isInterface {traits : TypeTraits} (answers : table.Answers id traits) :
    table.isInterface id = traits.isInterface :=
  congrArg TypeTraits.isInterface answers.traits

theorem Outlines.isError {outline : TypeOutline} (outlines : table.Outlines id outline) :
    table.isError id = outline.isError := by
  cases outlines with
  | plain answers => exact answers.isError
  | tuple found parts =>
      rw [TypeTable.isError, found]
      rfl
  | func found parts =>
      rw [TypeTable.isError, found]
      rfl

theorem interfaceWithin_of_form (found : table.get? id = some form) (steps : Nat)
    (stays : form.isNamed = false) : table.interfaceWithin (steps + 1) id = form.isInterface := by
  have same : table.follow (steps + 1) id = id := by
    rw [follow, found]
    cases form with
    | named name underlying => cases stays
    | _ => rfl
  rw [interfaceWithin, same, found]
  cases form <;> rfl

theorem Outlines.isInterface {outline : TypeOutline} (outlines : table.Outlines id outline) :
    table.isInterface id = outline.isInterface := by
  cases outlines with
  | plain answers => exact answers.isInterface
  | tuple found parts => exact interfaceWithin_of_form found 31 rfl
  | func found parts => exact interfaceWithin_of_form found 31 rfl

theorem Outlines.errorPositions {outline : TypeOutline} (outlines : table.Outlines id outline) :
    table.errorPositions id = outline.errorPositions := by
  cases outlines with
  | plain answers =>
      obtain ⟨form, found, isPlain⟩ := answers.plain
      rw [TypeTable.errorPositions, found]
      cases form with
      | tuple elements => cases isPlain
      | _ => rfl
  | tuple found parts =>
      rw [TypeTable.errorPositions, found]
      exact positionsFrom_of_forall₂ (parts.imp fun _ _ answers => answers.isError) 0
  | func found parts =>
      rw [TypeTable.errorPositions, found]
      rfl

/-! ### Outlines stay -/

theorem Ordered.follow_lt (ordered : table.Ordered) (steps : Nat)
    (present : id.index < table.size) : (table.follow steps id).index < table.size := by
  induction steps generalizing id with
  | zero => exact ordered.invalid_lt
  | succ steps ih =>
      unfold follow
      split
      · rename_i name underlying found
        refine ih (Nat.lt_trans (ordered.earlier id _ found underlying ?_) present)
        exact List.mem_singleton.mpr rfl
      · exact present

theorem Precedes.follow (precedes : before.Precedes after) (ordered : before.Ordered) (steps : Nat)
    (present : id.index < before.size) : after.follow steps id = before.follow steps id := by
  induction steps generalizing id with
  | zero => rfl
  | succ steps ih =>
      unfold TypeTable.follow
      rw [precedes.get? present]
      split
      · rename_i name underlying found
        refine ih (Nat.lt_trans (ordered.earlier id _ found underlying ?_) present)
        exact List.mem_singleton.mpr rfl
      · rfl

theorem Precedes.interfaceWithin (precedes : before.Precedes after) (ordered : before.Ordered)
    (steps : Nat) (present : id.index < before.size) :
    after.interfaceWithin steps id = before.interfaceWithin steps id := by
  rw [TypeTable.interfaceWithin, precedes.follow ordered steps present,
    precedes.get? (ordered.follow_lt steps present)]
  rfl

theorem Precedes.isError (precedes : before.Precedes after) (present : id.index < before.size) :
    after.isError id = before.isError id := by
  rw [TypeTable.isError, precedes.get? present]
  rfl

theorem Precedes.traits (precedes : before.Precedes after) (ordered : before.Ordered)
    (present : id.index < before.size) : after.traits id = before.traits id := by
  have isInterface : after.isInterface id = before.isInterface id :=
    precedes.interfaceWithin ordered chainLimit present
  rw [TypeTable.traits, precedes.isError present, isInterface]
  rfl

theorem Answers.lt_size {traits : TypeTraits} (answers : table.Answers id traits) :
    id.index < table.size := by
  obtain ⟨form, found, _⟩ := answers.plain
  exact (Array.getElem?_eq_some_iff.mp found).1

theorem Precedes.get?_some (precedes : before.Precedes after) (found : before.get? id = some form) :
    after.get? id = some form := by
  rw [precedes.get? (Array.getElem?_eq_some_iff.mp found).1, found]

theorem Answers.mono {traits : TypeTraits} (answers : before.Answers id traits)
    (ordered : before.Ordered) (precedes : before.Precedes after) : after.Answers id traits := by
  obtain ⟨form, found, isPlain⟩ := answers.plain
  exact ⟨⟨form, precedes.get?_some found, isPlain⟩,
    (precedes.traits ordered answers.lt_size).trans answers.traits⟩

theorem Outlines.mono {outline : TypeOutline} (outlines : before.Outlines id outline)
    (ordered : before.Ordered) (precedes : before.Precedes after) : after.Outlines id outline := by
  cases outlines with
  | plain answers => exact .plain (answers.mono ordered precedes)
  | tuple found parts =>
      exact .tuple (precedes.get?_some found)
        (parts.imp fun _ _ answers => answers.mono ordered precedes)
  | func found parts =>
      exact .func (precedes.get?_some found)
        (parts.imp fun _ _ answers => answers.mono ordered precedes)

/-! ### Types made of plain ones -/

theorem Ordered.answers_invalid (ordered : table.Ordered) :
    table.Answers .invalid ⟨false, false⟩ := by
  refine ⟨⟨.invalid, ordered.invalid, rfl⟩, ?_⟩
  have isInterface : table.isInterface .invalid = false :=
    interfaceWithin_of_form ordered.invalid 31 rfl
  rw [TypeTable.traits, isInterface, TypeTable.isError, ordered.invalid]
  rfl

theorem lt_size_of_answers {ids : List TypeId} {traits : List TypeTraits}
    (answers : List.Forall₂ table.Answers ids traits) : ∀ id ∈ ids, id.index < table.size := by
  induction answers with
  | nil => simp
  | cons first _ ih => exact List.forall_mem_cons.mpr ⟨first.lt_size, ih⟩

theorem Ordered.outlines_func (ordered : table.Ordered) {results : List TypeId}
    {traits : List TypeTraits} (answers : List.Forall₂ table.Answers results traits) :
    (table.enter (.func [] results)).2.Outlines (table.enter (.func [] results)).1
      (.func traits) :=
  .func (get?_enter _ _) (answers.imp fun _ _ answers =>
    answers.mono ordered (precedes_enter table _))

theorem Ordered.outlines_resultsType (ordered : table.Ordered) {results : List TypeId}
    {traits : List TypeTraits} (answers : List.Forall₂ table.Answers results traits) :
    (table.resultsType results).2.Outlines (table.resultsType results).1
      (TypeOutline.ofResults traits) := by
  match answers with
  | .nil => exact .plain ordered.answers_invalid
  | .cons single .nil => exact .plain single
  | .cons first (.cons second rest) =>
      exact .tuple (get?_enter _ _) ((List.Forall₂.cons first (.cons second rest)).imp
        fun _ _ answers => answers.mono ordered (precedes_enter table _))

end TypeTable

namespace Dump

/-! ### What the declarations say -/

/-- Whether the declarations lead from a name to an interface in at most so many links. -/
def namesInterface (decls : List TypeDecl) : Nat → String → Bool
  | 0, _ => false
  | steps + 1, name =>
    if name = "error" then true
    else
      match declaration? decls name with
      | some (.named _ underlying) => namesInterface decls steps (Text.trim underlying)
      | some (.interface _ _) => 0 < steps
      | some _ => false
      | none => name = "any" ∨ name = "interface\x7b\x7d"

/-- What is asked of the type of a spelling, by the declarations. -/
def spelledTraits (decls : List TypeDecl) (spelling : String) : TypeTraits where
  isError := Text.trim spelling = "error"
  isInterface := namesInterface decls TypeTable.chainLimit (Text.trim spelling)

/-- A type of the table that answers as the declarations of its name do. -/
structure Spells (decls : List TypeDecl) (types : TypeTable) (name : String) (id : TypeId) :
    Prop where
  plain : ∃ form, types.get? id = some form ∧ form.isPlain = true
  isError : types.isError id = decide (name = "error")
  isInterface : ∀ steps, types.interfaceWithin steps id = namesInterface decls steps name

/-- Every name that was resolved has a type that answers as its declarations do. -/
structure TypeNames.Faithful (decls : List TypeDecl) (names : TypeNames) : Prop
    extends names.Ordered where
  predeclared : names.types.get? .error = some .error
  spells : ∀ name id, names.known[name]? = some id → Spells decls names.types name id

variable {decls : List TypeDecl} {names before after : TypeNames} {name : String} {id : TypeId}

theorem Spells.present {types : TypeTable} (spells : Spells decls types name id) :
    id.index < types.size := by
  obtain ⟨form, found, _⟩ := spells.plain
  exact (Array.getElem?_eq_some_iff.mp found).1

theorem Spells.mono {types later : TypeTable} (spells : Spells decls types name id)
    (ordered : types.Ordered) (precedes : types.Precedes later) : Spells decls later name id where
  plain := by
    obtain ⟨form, found, isPlain⟩ := spells.plain
    exact ⟨form, precedes.get?_some found, isPlain⟩
  isError := (precedes.isError spells.present).trans spells.isError
  isInterface steps :=
    (precedes.interfaceWithin ordered steps spells.present).trans (spells.isInterface steps)

theorem Spells.answers {types : TypeTable} {spelling : String}
    (spells : Spells decls types (Text.trim spelling) id) :
    types.Answers id (spelledTraits decls spelling) := by
  have isInterface : types.isInterface id =
      namesInterface decls TypeTable.chainLimit (Text.trim spelling) :=
    spells.isInterface TypeTable.chainLimit
  refine ⟨spells.plain, ?_⟩
  rw [TypeTable.traits, spells.isError, isInterface]
  rfl

/-! ### Resolving a name -/

/-- The outcome of resolving a name. -/
structure Gives (decls : List TypeDecl) (name : String) (result : TypeId × TypeNames) : Prop where
  faithful : result.2.Faithful decls
  spells : Spells decls result.2.types name result.1

theorem interfaceWithin_zero {types : TypeTable} (ordered : types.Ordered) (id : TypeId) :
    types.interfaceWithin 0 id = false := by
  rw [TypeTable.interfaceWithin, TypeTable.follow, ordered.invalid]

/-- A type that is not a declared one. -/
theorem spells_of_form {types : TypeTable} {form : TypeForm} (ordered : types.Ordered)
    (found : types.get? id = some form) (isPlain : form.isPlain = true)
    (stays : form.isNamed = false) (isError : (form == .error) = decide (name = "error"))
    (answers : ∀ steps, namesInterface decls (steps + 1) name = form.isInterface) :
    Spells decls types name id where
  plain := ⟨form, found, isPlain⟩
  isError := by
    rw [TypeTable.isError, found, ← isError]
    rfl
  isInterface steps := by
    cases steps with
    | zero => exact interfaceWithin_zero ordered id
    | succ steps => rw [TypeTable.interfaceWithin_of_form found steps stays, answers steps]

/-- A declared type answers as the type that it is declared as, one link later. -/
theorem spells_of_named {types : TypeTable} {spelled : String} {underlying : TypeId}
    (ordered : types.Ordered) (found : types.get? id = some (.named spelled underlying))
    (notError : name ≠ "error")
    (answers : ∀ steps, namesInterface decls (steps + 1) name =
      types.interfaceWithin steps underlying) : Spells decls types name id where
  plain := ⟨_, found, rfl⟩
  isError := by
    rw [TypeTable.isError, found, decide_eq_false notError]
    rfl
  isInterface steps := by
    cases steps with
    | zero => exact interfaceWithin_zero ordered id
    | succ steps =>
        rw [answers steps, TypeTable.interfaceWithin, TypeTable.follow, found]
        rfl

namespace TypeNames

theorem faithful_initial : initial.Faithful decls :=
  ⟨ordered_initial, TypeTable.get?_initial .error, fun _ _ found => by simp [initial] at found⟩

theorem Faithful.withTypes (faithful : names.Faithful decls) {types : TypeTable}
    (ordered : types.Ordered) (precedes : names.types.Precedes types) :
    { names with types }.Faithful decls := by
  have spells : ∀ name id, names.known[name]? = some id → Spells decls types name id :=
    fun name id found => (faithful.spells name id found).mono faithful.types precedes
  refine ⟨⟨ordered, fun name id found => (spells name id found).present⟩, ?_, spells⟩
  rw [precedes.get? faithful.types.predeclared]
  exact faithful.predeclared

theorem Faithful.warn (faithful : names.Faithful decls) (warning : Warning) :
    (names.warn warning).Faithful decls :=
  ⟨⟨faithful.types, faithful.known⟩, faithful.predeclared, faithful.spells⟩

theorem Faithful.enter (faithful : names.Faithful decls) {form : TypeForm}
    (present : ∀ part ∈ form.parts, part.index < names.types.size) :
    (names.enter form).2.Faithful decls :=
  faithful.withTypes (faithful.types.enter present).ordered (names.types.precedes_enter form)

end TypeNames

theorem Gives.remember {result : TypeId × TypeNames} (gives : Gives decls name result) :
    Gives decls name (TypeNames.remember name result) := by
  have known := (gives.faithful.toOrdered.enters_of_lt gives.spells.present).remember name
  refine ⟨⟨known.ordered, gives.faithful.predeclared, fun other id found => ?_⟩, gives.spells⟩
  rw [TypeNames.remember, Std.HashMap.getElem?_insert] at found
  split at found
  · rename_i same
    cases found
    cases beq_iff_eq.mp same
    exact gives.spells
  · exact gives.faithful.spells other id found

/-- A form that needs no other type. -/
theorem gives_enter (faithful : names.Faithful decls) {form : TypeForm} (alone : form.parts = [])
    (isPlain : form.isPlain = true) (stays : form.isNamed = false)
    (isError : (form == .error) = decide (name = "error"))
    (answers : ∀ steps, namesInterface decls (steps + 1) name = form.isInterface) :
    Gives decls name (names.enter form) := by
  have after : (names.enter form).2.Faithful decls := faithful.enter (by simp [alone])
  exact ⟨after, spells_of_form after.types (names.types.get?_enter form) isPlain stays isError
    answers⟩

/-- A declared type, once the type that it is declared as is there. -/
theorem gives_named (faithful : names.Faithful decls) {spelled : String} {underlying : TypeId}
    (present : underlying.index < names.types.size) (notError : name ≠ "error")
    (answers : ∀ steps, namesInterface decls (steps + 1) name =
      names.types.interfaceWithin steps underlying) :
    Gives decls name (names.enter (.named spelled underlying)) := by
  have after : (names.enter (.named spelled underlying)).2.Faithful decls :=
    faithful.enter (by simpa [TypeForm.parts] using present)
  refine ⟨after, spells_of_named after.types (names.types.get?_enter _) notError fun steps => ?_⟩
  rw [answers steps]
  exact ((names.types.precedes_enter _).interfaceWithin faithful.types steps present).symm

/-- A declared type whose underlying form needs no other type. -/
theorem gives_named_alone (faithful : names.Faithful decls) {form : TypeForm} {spelled : String}
    (alone : form.parts = []) (stays : form.isNamed = false) (notError : name ≠ "error")
    (answers : ∀ steps, namesInterface decls (steps + 1) name =
      (decide (0 < steps) && form.isInterface)) :
    Gives decls name ((names.enter form).2.enter (.named spelled (names.enter form).1)) := by
  have inner : (names.enter form).2.Faithful decls := faithful.enter (by simp [alone])
  have found := names.types.get?_enter form
  refine gives_named inner (Array.getElem?_eq_some_iff.mp found).1 notError fun steps => ?_
  rw [answers steps]
  cases steps with
  | zero => exact (interfaceWithin_zero inner.types _).symm
  | succ steps => exact (TypeTable.interfaceWithin_of_form found steps stays).symm

theorem Gives.pointer {target : String} {result : TypeId × TypeNames}
    (gives : Gives decls target result) (notError : name ≠ "error")
    (never : ∀ steps, namesInterface decls (steps + 1) name = false) :
    Gives decls name (result.2.enter (.pointer result.1)) := by
  have after : (result.2.enter (.pointer result.1)).2.Faithful decls :=
    gives.faithful.enter (by simpa [TypeForm.parts] using gives.spells.present)
  exact ⟨after, spells_of_form after.types (result.2.types.get?_enter _) rfl rfl
    (decide_eq_false notError).symm never⟩

/-- Whatever the first name leads to, the second leads to in fewer links. -/
def LeadsOn (decls : List TypeDecl) (first second : String) : Prop :=
  ∀ steps, namesInterface decls steps first = true →
    ∃ fewer < steps, namesInterface decls fewer second = true

/-- Declarations that run in a circle never lead to an interface. -/
theorem LeadsOn.not_interface (circle : LeadsOn decls name name) (steps : Nat) :
    namesInterface decls steps name = false := by
  induction steps using Nat.strongRecOn with
  | _ steps ih =>
      cases reached : namesInterface decls steps name with
      | false => rfl
      | true =>
          obtain ⟨fewer, less, again⟩ := circle steps reached
          rw [ih fewer less] at again
          cases again

theorem LeadsOn.underlying {first other underlying : String} (leads : LeadsOn decls first name)
    (notError : name ≠ "error") (found : declaration? decls name = some (.named other underlying)) :
    LeadsOn decls first (Text.trim underlying) := by
  intro steps reached
  obtain ⟨fewer, less, later⟩ := leads steps reached
  cases fewer with
  | zero => cases later
  | succ fewer =>
      rw [namesInterface, if_neg notError, found] at later
      exact ⟨fewer, Nat.lt_of_succ_lt less, later⟩

theorem gives_error (faithful : names.Faithful decls) : Gives decls "error" (.error, names) :=
  ⟨faithful, spells_of_form faithful.types faithful.predeclared rfl rfl rfl fun _ => rfl⟩

theorem gives_invalid (faithful : names.Faithful decls) (notError : name ≠ "error")
    (answers : ∀ steps, namesInterface decls (steps + 1) name = false) :
    Gives decls name (.invalid, names) :=
  ⟨faithful, spells_of_form faithful.types faithful.types.invalid rfl rfl
    (decide_eq_false notError).symm answers⟩

theorem namesInterface_undeclared (notError : name ≠ "error")
    (undeclared : declaration? decls name = none) (steps : Nat) :
    namesInterface decls (steps + 1) name =
      decide (name = "any" ∨ name = "interface\x7b\x7d") := by
  rw [namesInterface, if_neg notError, undeclared]

theorem gives_resolveUndeclared (faithful : names.Faithful decls) (notError : name ≠ "error")
    (undeclared : declaration? decls name = none) :
    Gives decls name (resolveUndeclared name names) := by
  have answers := namesInterface_undeclared notError undeclared
  unfold resolveUndeclared
  split
  · rename_i isAny
    refine gives_enter faithful rfl rfl rfl (decide_eq_false notError).symm fun steps => ?_
    rw [answers, decide_eq_true isAny]
    rfl
  · rename_i notAny
    have never : ∀ steps, namesInterface decls (steps + 1) name = false := fun steps => by
      rw [answers, decide_eq_false notAny]
    split
    · exact gives_enter faithful rfl rfl rfl (decide_eq_false notError).symm never
    · exact gives_invalid (faithful.warn _) notError never

/-- Whatever was resolved before, a name gets a type that answers as its declarations do. -/
theorem gives_resolve (busy : List String) (spelling : String) (faithful : names.Faithful decls)
    (leads : ∀ first ∈ busy, LeadsOn decls first (Text.trim spelling)) :
    Gives decls (Text.trim spelling) (resolve decls busy spelling names) := by
  fun_induction resolve decls busy spelling names with
  | case1 busy spelling name isError =>
      rw [show Text.trim spelling = "error" from isError]
      exact gives_error faithful
  | case2 busy spelling name notError id known =>
      exact ⟨faithful, faithful.spells _ _ known⟩
  | case3 busy spelling name notError unknown decl found inBusy =>
      have never := (leads name inBusy).not_interface
      exact gives_invalid (faithful.warn _) notError fun steps => never (steps + 1)
  | case4 busy spelling name notError unknown decl found notBusy ih =>
      apply Gives.remember
      have answers : ∀ steps, namesInterface decls (steps + 1) name = _ := fun steps => by
        rw [namesInterface, if_neg notError, found]
      cases decl with
      | basic =>
          exact gives_enter faithful rfl rfl rfl (decide_eq_false notError).symm answers
      | named other underlying =>
          have inner := ih other underlying found fun first member => by
            rcases List.mem_cons.mp member with rfl | earlier
            · intro steps reached
              cases steps with
              | zero => cases reached
              | succ steps =>
                  exact ⟨steps, Nat.lt_succ_self steps, (answers steps).symm.trans reached⟩
            · exact (leads first earlier).underlying notError found
          exact gives_named inner.faithful inner.spells.present notError fun steps =>
            (answers steps).trans (inner.spells.isInterface steps).symm
      | interface other methods =>
          refine gives_named_alone faithful rfl rfl notError fun steps => ?_
          rw [answers steps]
          exact (Bool.and_true _).symm
      | struct =>
          refine gives_named_alone faithful rfl rfl notError fun steps => ?_
          rw [answers steps]
          exact (Bool.and_false _).symm
  | case5 busy spelling name notError unknown undeclared ih =>
      apply Gives.remember
      split
      · rename_i target pointer
        have notAny : ¬ (name = "any" ∨ name = "interface\x7b\x7d") := by
          rintro (same | same) <;> · rw [same] at pointer; cases pointer
        have never : ∀ steps, namesInterface decls (steps + 1) name = false := fun steps => by
          rw [namesInterface_undeclared notError undeclared, decide_eq_false notAny]
        -- No declaration leads anywhere through a pointer.
        have inner := ih target pointer fun first member => by
          intro steps reached
          obtain ⟨fewer, _, later⟩ := leads first member steps reached
          cases fewer with
          | zero => cases later
          | succ fewer => exact absurd later (by rw [never fewer]; exact Bool.false_ne_true)
        exact inner.pointer notError never
      · exact gives_resolveUndeclared faithful notError undeclared

end Dump

end ErrorWrapping
