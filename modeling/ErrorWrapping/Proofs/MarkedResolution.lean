import ErrorWrapping.Proofs.SettledTypes
import Mathlib.Data.List.MinMax
import Mathlib.Logic.Relation
import Mathlib.Order.Nat

/-
Resolving with marks.

The resolver can be run with the names that are being resolved as marks in its state: a name is
marked before its declaration is looked into and unmarked afterwards, and a marked name that is
met again closes a circle. Nested calls may go on only so deep. A depth that depends on the
declarations and on the spelling alone is always enough, the marks are then as they were, and the
type and the table are those of `resolve`, for which the marks are an argument.
-/

namespace ErrorWrapping.Dump

/-- The names resolved so far, and the names whose declarations are being resolved. -/
structure Resolver where
  names : TypeNames
  marks : List String

namespace Resolver

def initial : Resolver := ⟨.initial, []⟩

def perform (state : Resolver) (action : TypeNames → TypeId × TypeNames) : TypeId × Resolver :=
  ((action state.names).1, { state with names := (action state.names).2 })

def enter (state : Resolver) (form : TypeForm) : TypeId × Resolver :=
  state.perform (·.enter form)

/-- A form made of the type that was resolved last. -/
def enterOver (form : TypeId → TypeForm) (result : TypeId × Resolver) : TypeId × Resolver :=
  result.2.enter (form result.1)

def remember (name : String) (result : TypeId × Resolver) : TypeId × Resolver :=
  result.2.perform fun names => TypeNames.remember name (result.1, names)

def mark (state : Resolver) (name : String) : Resolver :=
  { state with marks := name :: state.marks }

def unmark (name : String) (result : TypeId × Resolver) : TypeId × Resolver :=
  (result.1, { result.2 with marks := result.2.marks.erase name })

/-- The type that a name is declared as; `inner` resolves the name that a declaration refers to. -/
def declare (inner : String → Resolver → Option (TypeId × Resolver)) (name : String)
    (state : Resolver) : TypeDecl → Option (TypeId × Resolver)
  | .basic _ => some (state.enter (.basic name))
  | .named _ underlying => (inner underlying state).map (enterOver (.named name))
  | .interface _ methods => some (enterOver (.named name) (state.enter (.interface methods)))
  | .struct _ => some (enterOver (.named name) (state.enter .struct))

/-- The type of a name without a declaration; `inner` resolves what a pointer points to. -/
def spell (inner : String → Resolver → Option (TypeId × Resolver)) (name : String)
    (state : Resolver) : Option (TypeId × Resolver) :=
  match name.toList with
  | '*' :: target => (inner (String.ofList target) state).map (enterOver .pointer)
  | _ => some (state.perform (resolveUndeclared name))

end Resolver

/-- The type of a name, if at most so many calls are nested. -/
def resolveWithin (decls : List TypeDecl) :
    Nat → String → Resolver → Option (TypeId × Resolver)
  | 0, _, _ => none
  | depth + 1, spelling, state =>
    let name := Text.trim spelling
    if name = "error" then some (.error, state)
    else
      match state.names.known[name]? with
      | some id => some (id, state)
      | none =>
        match declaration? decls name with
        | some decl =>
          if name ∈ state.marks then
            some (state.perform fun names => (.invalid, names.warn (.cyclicType name)))
          else
            (Resolver.declare (resolveWithin decls depth) name (state.mark name) decl).map
              fun result => Resolver.remember name (Resolver.unmark name result)
        | none =>
          (Resolver.spell (resolveWithin decls depth) name state).map (Resolver.remember name)

/-! ### Enough depth -/

def longestUnderlying (decls : List TypeDecl) : Nat :=
  (decls.map fun decl => match decl with
    | .named _ underlying => underlying.length
    | _ => 0).foldr max 0

/-- Calls that are nested at most: one for each declaration that is not marked yet, and between
two of them one for each pointer that is taken off. -/
def callDepth (decls : List TypeDecl) (marks : List String) (spelling : String) : Nat :=
  idle decls marks * (longestUnderlying decls + 1) + spelling.length + 1

variable {decls : List TypeDecl} {marks : List String} {name spelling : String}

theorem length_le_longestUnderlying {other underlying : String}
    (member : .named other underlying ∈ decls) : underlying.length ≤ longestUnderlying decls :=
  List.le_max_of_le (List.mem_map.mpr ⟨_, member, rfl⟩) (Nat.le_refl _)

theorem callDepth_underlying {other underlying : String}
    (found : declaration? decls name = some (.named other underlying)) (unmarked : name ∉ marks) :
    callDepth decls (name :: marks) underlying < callDepth decls marks spelling := by
  obtain ⟨member, rfl⟩ := declaration?_some found
  have short := length_le_longestUnderlying member
  have fewer := Nat.mul_le_mul_right (longestUnderlying decls + 1) (idle_cons_lt member unmarked)
  rw [Nat.succ_mul] at fewer
  simp only [callDepth] at fewer ⊢
  omega

theorem callDepth_target {target : List Char}
    (pointer : (Text.trim spelling).toList = '*' :: target) :
    callDepth decls marks (String.ofList target) < callDepth decls marks spelling := by
  have bound := Text.length_trimChars_le spelling.toList
  have same : (Text.trim spelling).toList = Text.trimChars spelling.toList := by simp [Text.trim]
  rw [← same, pointer, List.length_cons, String.length_toList] at bound
  simp only [callDepth, String.length_ofList]
  omega

/-! ### A run with marks -/

/-- A type and the names resolved so far, with these marks. -/
def withMarks (marks : List String) (result : TypeId × TypeNames) : TypeId × Resolver :=
  (result.1, ⟨result.2, marks⟩)

/-- How a run with marks can end: with this result and these marks, or because it was not allowed
to go deep enough. -/
inductive Ends (marks : List String) (result : TypeId × TypeNames) (depth needed : Nat) :
    Option (TypeId × Resolver) → Prop
  | done : Ends marks result depth needed (some (withMarks marks result))
  | shallow (less : depth < needed) : Ends marks result depth needed none

theorem remember_withMarks (name : String) (marks : List String) (result : TypeId × TypeNames) :
    Resolver.remember name (withMarks marks result) =
      withMarks marks (TypeNames.remember name result) :=
  rfl

theorem unmark_withMarks (name : String) (marks : List String) (result : TypeId × TypeNames) :
    Resolver.unmark name (withMarks (name :: marks) result) = withMarks marks result := by
  rw [Resolver.unmark, withMarks, List.erase_cons_head]
  rfl

theorem Ends.map {result : TypeId × TypeNames} {outcome : Option (TypeId × Resolver)}
    {depth needed deeper more : Nat} {last : List String}
    {step : TypeId × Resolver → TypeId × Resolver} (ends : Ends marks result depth needed outcome)
    (next : TypeId × TypeNames → TypeId × TypeNames)
    (same : step (withMarks marks result) = withMarks last (next result))
    (grows : depth < needed → deeper < more) :
    Ends last (next result) deeper more (outcome.map step) := by
  cases ends with
  | done =>
      rw [Option.map_some, same]
      exact .done
  | shallow less => exact .shallow (grows less)

theorem Ends.remember {result : TypeId × TypeNames} {outcome : Option (TypeId × Resolver)}
    {depth needed : Nat} (name : String) (ends : Ends marks result depth needed outcome) :
    Ends marks (TypeNames.remember name result) depth needed
      (outcome.map (Resolver.remember name)) :=
  ends.map (TypeNames.remember name) (remember_withMarks name marks result) id

/-- The mark of a name is gone once its type is remembered. -/
theorem Ends.settle {result : TypeId × TypeNames} {outcome : Option (TypeId × Resolver)}
    {depth needed : Nat} (ends : Ends (name :: marks) result depth needed outcome) :
    Ends marks (TypeNames.remember name result) depth needed
      (outcome.map fun result => Resolver.remember name (Resolver.unmark name result)) := by
  refine ends.map (TypeNames.remember name) ?_ id
  rw [unmark_withMarks, remember_withMarks]

/-- A form made of what a nested call resolves needs one call more. -/
theorem Ends.enterOver {result : TypeId × TypeNames} {outcome : Option (TypeId × Resolver)}
    {depth needed more : Nat} (form : TypeId → TypeForm)
    (ends : Ends marks result depth needed outcome) (less : needed < more) :
    Ends marks (result.2.enter (form result.1)) (depth + 1) more
      (outcome.map (Resolver.enterOver form)) :=
  ends.map (fun result => result.2.enter (form result.1)) rfl fun shallow =>
    Nat.lt_of_le_of_lt shallow less

theorem ends_of_succ {names : TypeNames} {result : TypeId × TypeNames}
    (deep : ∀ depth, Ends marks result (depth + 1) (callDepth decls marks spelling)
      (resolveWithin decls (depth + 1) spelling ⟨names, marks⟩)) (depth : Nat) :
    Ends marks result depth (callDepth decls marks spelling)
      (resolveWithin decls depth spelling ⟨names, marks⟩) := by
  cases depth with
  | zero => exact .shallow (Nat.succ_pos _)
  | succ depth => exact deep depth

theorem ends_resolveWithin (decls : List TypeDecl) (marks : List String) (spelling : String)
    (names : TypeNames) (depth : Nat) :
    Ends marks (resolve decls marks spelling names) depth (callDepth decls marks spelling)
      (resolveWithin decls depth spelling ⟨names, marks⟩) := by
  fun_induction resolve decls marks spelling names generalizing depth with
  | case1 marks spelling name isError =>
      refine ends_of_succ (fun depth => ?_) depth
      rw [resolveWithin, if_pos isError]
      exact .done
  | case2 marks spelling name notError id known =>
      refine ends_of_succ (fun depth => ?_) depth
      rw [resolveWithin, if_neg notError, known]
      exact .done
  | case3 marks spelling name notError unknown decl found marked =>
      refine ends_of_succ (fun depth => ?_) depth
      rw [resolveWithin, if_neg notError, unknown]
      simp only [name] at found marked
      simp only [found, if_pos marked]
      exact .done
  | case4 marks spelling name notError unknown decl found unmarked ih =>
      refine ends_of_succ (fun depth => ?_) depth
      rw [resolveWithin, if_neg notError, unknown]
      simp only [name] at found unmarked
      simp only [found, if_neg unmarked]
      apply Ends.settle
      cases decl with
      | basic => exact .done
      | named other underlying =>
          exact (ih other underlying found depth).enterOver _ (callDepth_underlying found unmarked)
      | interface => exact .done
      | struct => exact .done
  | case5 marks spelling name notError unknown undeclared ih =>
      refine ends_of_succ (fun depth => ?_) depth
      rw [resolveWithin, if_neg notError, unknown]
      simp only [name] at undeclared ih
      simp only [undeclared]
      apply Ends.remember
      unfold Resolver.spell
      split
      · rename_i target pointer
        split
        · rename_i other same
          cases pointer.symm.trans same
          exact (ih target pointer depth).enterOver _ (callDepth_target pointer)
        · rename_i never
          exact absurd pointer (never target)
      · rename_i never
        split
        · rename_i target pointer
          exact absurd pointer (never target)
        · exact .done

end ErrorWrapping.Dump
