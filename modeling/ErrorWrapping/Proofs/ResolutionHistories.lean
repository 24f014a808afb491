import ErrorWrapping.Proofs.DescribedTypes
import ErrorWrapping.Proofs.MarkedResolution

/-
Histories of a resolver.

Between two names other names may be resolved, and types may be entered that no name stands for.
Whatever happened before, resolving a name ends, takes all its marks away again and gives a type
that the name keeps from then on. Off the circles of the declarations this type is the one that
they describe, so the history does not show in it.
-/

namespace ErrorWrapping.Dump

open Relation (ReflTransGen)

section

variable {decls : List TypeDecl} {spelling : String} {depth : Nat} {state after : Resolver}

/-! ### One call -/

theorem eq_of_resolveWithin {result : TypeId × Resolver}
    (run : resolveWithin decls depth spelling state = some result) :
    result = withMarks state.marks (resolve decls state.marks spelling state.names) := by
  have ends := ends_resolveWithin decls state.marks spelling state.names depth
  rw [run] at ends
  cases ends with
  | done => rfl

theorem resolveWithin_of_depth (deep : callDepth decls state.marks spelling ≤ depth) :
    resolveWithin decls depth spelling state =
      some (withMarks state.marks (resolve decls state.marks spelling state.names)) := by
  cases run : resolveWithin decls depth spelling state with
  | some result => rw [eq_of_resolveWithin run]
  | none =>
      have ends := ends_resolveWithin decls state.marks spelling state.names depth
      rw [run] at ends
      cases ends with
      | shallow less => exact absurd less (Nat.not_lt.mpr deep)

/-- A name that has a type keeps it, and resolving it again changes nothing. -/
theorem resolve_again {names following : TypeNames} {again : String}
    (precedes : (resolve decls [] spelling names).2.Precedes following)
    (same : Text.trim again = Text.trim spelling) :
    resolve decls [] again following = ((resolve decls [] spelling names).1, following) := by
  by_cases isError : Text.trim spelling = "error"
  · rw [resolve_error isError, resolve, if_pos (same.trans isError)]
  · have known := precedes.known (known_resolve isError)
    rw [resolve, same, if_neg isError]
    simp only [known]

/-! ### Histories -/

namespace Resolver

/-- What may happen to a resolver: a name is resolved, or a form that is made of types of the
table is entered for its own sake. -/
inductive Step (decls : List TypeDecl) : Resolver → Resolver → Prop
  | resolve {state after : Resolver} {depth : Nat} {spelling : String} {id : TypeId}
      (run : resolveWithin decls depth spelling state = some (id, after)) : Step decls state after
  | enter {state : Resolver} {form : TypeForm}
      (present : ∀ part ∈ form.parts, part.index < state.names.types.size) :
      Step decls state (state.enter form).2

/-- A call from outside: no name is being resolved. -/
def call (decls : List TypeDecl) (spelling : String) (state : Resolver) : TypeId × Resolver :=
  withMarks [] (Dump.resolve decls [] spelling state.names)

/-- What is true of a resolver between two names. -/
structure Idle (decls : List TypeDecl) (state : Resolver) : Prop where
  unmarked : state.marks = []
  faithful : state.names.Faithful decls
  written : state.names.Written decls

theorem idle_initial : initial.Idle decls :=
  ⟨rfl, TypeNames.faithful_initial, TypeNames.written_initial⟩

theorem Idle.gives (idle : state.Idle decls) (spelling : String) :
    Gives decls (Text.trim spelling) (Dump.resolve decls [] spelling state.names) :=
  gives_resolve [] spelling idle.faithful fun _ impossible => by cases impossible

theorem Idle.writes (idle : state.Idle decls) (spelling : String) :
    Writes decls (Text.trim spelling) (Dump.resolve decls [] spelling state.names) :=
  writes_resolve [] spelling idle.written fun _ impossible => by cases impossible

theorem Idle.call (idle : state.Idle decls) (spelling : String) :
    (state.call decls spelling).2.Idle decls where
  unmarked := rfl
  faithful := (idle.gives spelling).faithful
  written := (idle.writes spelling).written

/-- Nothing that happens takes a type or a name away. -/
theorem Idle.step (idle : state.Idle decls) (step : Step decls state after) :
    after.Idle decls ∧ state.names.Precedes after.names := by
  cases step with
  | resolve run =>
      have ends := eq_of_resolveWithin run
      rw [idle.unmarked] at ends
      cases ends
      exact ⟨idle.call _, precedes_resolve _ _ _ _⟩
  | enter present =>
      exact ⟨⟨idle.unmarked, idle.faithful.enter present, idle.written.enter _⟩,
        TypeNames.precedes_enter _ _⟩

theorem Idle.history (idle : state.Idle decls) (history : ReflTransGen (Step decls) state after) :
    after.Idle decls ∧ state.names.Precedes after.names := by
  induction history with
  | refl => exact ⟨idle, .refl _⟩
  | tail _ step ih =>
      obtain ⟨idle, precedes⟩ := ih.1.step step
      exact ⟨idle, ih.2.trans precedes⟩

/-- A name has been resolved for good. -/
structure Settles (decls : List TypeDecl) (spelling : String) (id : TypeId) (after : Resolver) :
    Prop where
  unmarked : after.marks = []
  present : ∃ form, after.names.types.get? id = some form
  /-- Whatever happens next, the name has this type, and resolving it changes nothing. -/
  stays : ∀ later, ReflTransGen (Step decls) after later →
    ∀ again, Text.trim again = Text.trim spelling →
      ∀ depth, callDepth decls [] again ≤ depth →
        resolveWithin decls depth again later = some (id, later)
  /-- Off the circles the declarations describe one type for the name, and the number is written
  out as this type and no other, now and later. -/
  unfolds : OffCircles decls (Text.trim spelling) →
    ∃ full, (∀ other, Describes decls (Text.trim spelling) other ↔ other = full) ∧
      ∀ later, ReflTransGen (Step decls) after later →
        ∀ other, later.names.types.Unfolds id other ↔ other = full

theorem Idle.settles (idle : state.Idle decls) (spelling : String) :
    Settles decls spelling (state.call decls spelling).1 (state.call decls spelling).2 where
  unmarked := rfl
  present := by
    obtain ⟨form, found, _⟩ := (idle.gives spelling).spells.plain
    exact ⟨form, found⟩
  stays later history again same depth deep := by
    obtain ⟨laterIdle, precedes⟩ := (idle.call spelling).history history
    obtain ⟨names, marks⟩ := later
    cases laterIdle.unmarked
    rw [resolveWithin_of_depth deep, resolve_again precedes same]
    rfl
  unfolds off := by
    obtain ⟨full, describes⟩ := (exists_describes_iff spelling).mpr off
    refine ⟨full, fun other => ⟨describes.unique, ?_⟩, fun later history other => ?_⟩
    · rintro rfl
      exact describes
    · obtain ⟨_, precedes⟩ := (idle.call spelling).history history
      have unfolds := ((idle.writes spelling).unfolds describes).mono precedes.types
      refine ⟨unfolds.unique, ?_⟩
      rintro rfl
      exact unfolds

/-- Resolving a name ends after every history, at a depth that does not depend on the history. It
gives what `resolve` gives, leaves no mark and settles the name. -/
theorem resolveWithin_settles (decls : List TypeDecl) (spelling : String) {state : Resolver}
    (history : ReflTransGen (Step decls) initial state) :
    ∃ id after, (∀ depth, callDepth decls [] spelling ≤ depth →
        resolveWithin decls depth spelling state = some (id, after)) ∧
      Dump.resolve decls [] spelling state.names = (id, after.names) ∧
      Settles decls spelling id after := by
  obtain ⟨idle, _⟩ := idle_initial.history history
  refine ⟨_, _, fun depth deep => ?_, rfl, idle.settles spelling⟩
  rw [← idle.unmarked] at deep
  rw [resolveWithin_of_depth deep, idle.unmarked]
  rfl

end Resolver

end

namespace tangled

/-- A pointer to itself, two names for each other, and a name that has nothing to do with them. -/
def decls : List TypeDecl :=
  [.named "Tree" "*Tree", .named "Ping" " Pong", .named "Pong" "Ping", .interface "Shape" ["Area"],
    .named "Form" "* Shape"]

def first : Resolver := (Resolver.initial.call decls "*Tree").2

def second : Resolver := (first.call decls "Pong").2

def form : FullType := .named "Form" (.pointer (.named "Shape" (.interface ["Area"])))

theorem history : ReflTransGen (Resolver.Step decls) .initial second :=
  (ReflTransGen.single (.resolve (resolveWithin_of_depth (Nat.le_refl _)))).tail
    (.resolve (resolveWithin_of_depth (Nat.le_refl _)))

theorem describes_form : Describes decls (Text.trim " Form ") form := by
  have shape : Describes decls (Text.trim (String.ofList [' ', 'S', 'h', 'a', 'p', 'e']))
      (.named "Shape" (.interface ["Area"])) :=
    .interface (by decide) (show declaration? decls _ = some (.interface "Shape" _) by decide)
  have pointer : Describes decls (Text.trim "* Shape")
      (.pointer (.named "Shape" (.interface ["Area"]))) :=
    .pointer (by decide) (by decide) shape
  exact .named (by decide) (show declaration? decls _ = some (.named "Form" _) by decide) pointer

theorem form_settled :
    ReflTransGen (Resolver.Step decls) .initial second ∧
      ∃ id after, resolveWithin decls 47 " Form " second = some (id, after) ∧
        (resolve decls [] " Form " second.names).1 = id ∧ after.marks = [] ∧
        ∀ full, after.names.types.Unfolds id full ↔ full = form := by
  obtain ⟨id, after, run, same, settles⟩ :=
    Resolver.resolveWithin_settles decls " Form " history
  obtain ⟨full, described, unfolds⟩ := settles.unfolds describes_form.offCircles
  cases (described form).mp describes_form
  exact ⟨history, id, after, run 47 (by decide), congrArg Prod.fst same, settles.unmarked,
    unfolds after .refl⟩

end tangled

end ErrorWrapping.Dump
