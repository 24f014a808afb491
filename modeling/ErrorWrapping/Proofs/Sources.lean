import ErrorWrapping.Proofs.SortedEntries
import ErrorWrapping.Analysis.Summary
import ErrorWrapping.Proofs.Walks

/-
The error sources of a function, said without lists.

A function returns what its own `return` statements give, those of literals inside it left out.
A returned call is a source by itself; a returned variable has as sources the calls that define
it anywhere in the unit; whatever else is an error is a source of unknown origin. The escapes of
a function are exactly these sources, and they can be computed whenever the tree can be walked.
-/

namespace ErrorWrapping

def ExprKind.IsCall : ExprKind → Prop
  | .call _ _ => True
  | _ => False

namespace Package

/-- A node anywhere in the bodies of declared functions or in package-level statements. -/
def Occurs (unit : Package) (ref : NodeRef) : Prop :=
  (∃ decl ∈ unit.decls, ∃ function roots, unit.arena.function? decl = some function ∧
    unit.arena.bodyRefs? function = some roots ∧ unit.arena.Met .whole roots ref) ∨
  unit.arena.Met .whole unit.globalRefs ref

def symbolOf? (unit : Package) (func : FuncId) : Option SymbolId :=
  (unit.arena.function? func).bind (·.symbol)

end Package

namespace UnitView

/-- The target at a position of an assignment is an `error` identifier of a variable, and the
value paired with it is a call. -/
def Pairs (view : UnitView) (targets values : List ExprId) (position : Nat) (var : VarId)
    (definition : Definition) : Prop :=
  targets[position]? = some definition.target ∧
  valueFor? targets values position = some definition.call ∧
  ∃ node value : Expr, view.arena.expr? definition.target = some node ∧
    view.isErrorExpr node = true ∧ view.varOf? node = some var ∧
    view.arena.expr? definition.call = some value ∧ value.kind.IsCall

/-- A statement makes a definition of a variable. -/
def Assigns (view : UnitView) (id : StmtId) (var : VarId) (definition : Definition) : Prop :=
  ∃ (stmt : Stmt) (left right : IdRange) (targets values : List ExprId) (position : Nat),
    view.arena.stmt? id = some stmt ∧ stmt.kind.assignment? = some (left, right) ∧
    view.arena.exprList? left = some targets ∧ view.arena.exprList? right = some values ∧
    definition.span = stmt.span ∧ view.Pairs targets values position var definition

/-- A call defines a variable somewhere in the unit. -/
def Defines (view : UnitView) (var : VarId) (call : ExprId) : Prop :=
  ∃ (id : StmtId) (definition : Definition), view.unit.Occurs (.stmt id) ∧
    view.Assigns id var definition ∧ definition.call = call

/-- A `return` of a function itself, with its results. -/
def Returns (view : UnitView) (function : Function) (results : List ExprId) : Prop :=
  ∃ (roots : List NodeRef) (id : StmtId) (stmt : Stmt) (range : IdRange),
    view.arena.bodyRefs? function = some roots ∧ view.arena.Met .own roots (.stmt id) ∧
    view.arena.stmt? id = some stmt ∧ stmt.kind = .ret range ∧
    view.arena.exprList? range = some results

/-- An error that a function lets out. -/
inductive Returned where
  | call (id : ExprId)
  | var (id : VarId)
  | unknown

/-- The error that a returned expression is. -/
inductive ExprCarries (view : UnitView) (id : ExprId) : Returned → Prop
  | call {expr : Expr} (found : view.arena.expr? id = some expr) (isCall : expr.kind.IsCall)
      (isError : view.isErrorExpr expr = true ∨ view.holdsError expr = true) :
      ExprCarries view id (.call id)
  | var {expr : Expr} {var : VarId} (found : view.arena.expr? id = some expr)
      (noCall : ¬ expr.kind.IsCall) (isError : view.isErrorExpr expr = true)
      (names : view.varOf? expr = some var) : ExprCarries view id (.var var)
  | other {expr : Expr} (found : view.arena.expr? id = some expr)
      (noCall : ¬ expr.kind.IsCall) (isError : view.isErrorExpr expr = true)
      (names : view.varOf? expr = none) : ExprCarries view id .unknown

/-- The error that a declared result is at a bare return. -/
inductive SlotCarries (view : UnitView) (slot : ResultSlot) : Returned → Prop
  | named {var : VarId} (isError : view.types.isError slot.type = true)
      (named : slot.var = some var) : SlotCarries view slot (.var var)
  | unnamed (isError : view.types.isError slot.type = true) (unnamed : slot.var = none) :
      SlotCarries view slot .unknown

/-- The errors that the returns of a function let out. -/
inductive LetsOut (view : UnitView) (function : Function) (returned : Returned) : Prop
  | expr {results : List ExprId} {id : ExprId} (returns : view.Returns function results)
      (member : id ∈ results) (carries : view.ExprCarries id returned) :
      LetsOut view function returned
  | bare {slot : ResultSlot} (returns : view.Returns function [])
      (declared : slot ∈ function.results) (carries : view.SlotCarries slot returned) :
      LetsOut view function returned

/-- The calls that an error goes back to, by what they invoke; `none` for an unknown origin. -/
inductive GoesBackTo (view : UnitView) : Returned → Option CallTarget → Prop
  | call {id : ExprId} {expr : Expr} {target : CallTarget}
      (found : view.arena.expr? id = some expr) (invokes : view.target? expr = some target) :
      GoesBackTo view (.call id) (some target)
  | defined {var : VarId} {id : ExprId} {expr : Expr} {target : CallTarget}
      (defines : view.Defines var id) (found : view.arena.expr? id = some expr)
      (invokes : view.target? expr = some target) : GoesBackTo view (.var var) (some target)
  | undefined {var : VarId} (missing : ∀ id, ¬ view.Defines var id) :
      GoesBackTo view (.var var) none
  | unknown : GoesBackTo view .unknown none

def Source (view : UnitView) (function : Function) (source : Option CallTarget) : Prop :=
  ∃ returned, view.LetsOut function returned ∧ view.GoesBackTo returned source

end UnitView

/-! ### Error results -/

theorem mem_positionsFrom {α : Type} {test : α → Bool} {start position : Nat} {entries : List α} :
    position ∈ TypeTable.positionsFrom test start entries ↔
      ∃ offset entry, position = start + offset ∧ entries[offset]? = some entry ∧
        test entry = true := by
  induction entries generalizing start with
  | nil => simp [TypeTable.positionsFrom]
  | cons head rest ih =>
      have later : (∃ offset entry, position = start + 1 + offset ∧
            rest[offset]? = some entry ∧ test entry = true) ↔
          ∃ offset entry, position = start + (offset + 1) ∧
            (head :: rest)[offset + 1]? = some entry ∧ test entry = true := by
        simp only [List.getElem?_cons_succ, Nat.add_assoc, Nat.add_comm 1]
      have split : (∃ offset entry, position = start + offset ∧
            (head :: rest)[offset]? = some entry ∧ test entry = true) ↔
          (position = start ∧ test head = true) ∨
          ∃ offset entry, position = start + (offset + 1) ∧
            (head :: rest)[offset + 1]? = some entry ∧ test entry = true := by
        constructor
        · intro found
          obtain ⟨offset, entry, same, atOffset, holds⟩ := found
          cases offset with
          | zero =>
              cases atOffset
              exact Or.inl ⟨same, holds⟩
          | succ offset => exact Or.inr ⟨offset, entry, same, atOffset, holds⟩
        · intro found
          rcases found with atHead | ⟨offset, entry, same, atOffset, holds⟩
          · exact ⟨0, head, atHead.1, rfl, atHead.2⟩
          · exact ⟨offset + 1, entry, same, atOffset, holds⟩
      rw [split, ← later, ← ih, TypeTable.positionsFrom]
      by_cases holds : test head = true
      · rw [if_pos holds, List.mem_cons, and_iff_left holds]
      · rw [if_neg holds, or_iff_right fun atHead => holds atHead.2]

namespace ErrorShape

theorem positions_ofFunction (types : TypeTable) (function : Function) :
    (ofFunction types function).positions =
      TypeTable.positionsFrom (fun slot => types.isError slot.type) 0 function.results := by
  simp only [ofFunction]
  cases TypeTable.positionsFrom (fun slot => types.isError slot.type) 0 function.results with
  | nil => rfl
  | cons first rest =>
      cases rest with
      | nil => by_cases alone : function.results.length = 1 <;> simp [alone, positions]
      | cons second rest => rfl

theorem mem_positions {types : TypeTable} {function : Function} {position : Nat} :
    position ∈ (ofFunction types function).positions ↔
      ∃ slot, function.results[position]? = some slot ∧ types.isError slot.type = true := by
  rw [positions_ofFunction, mem_positionsFrom]
  constructor
  · intro found
    obtain ⟨offset, slot, same, atOffset, isError⟩ := found
    rw [Nat.zero_add] at same
    exact ⟨slot, same ▸ atOffset, isError⟩
  · intro found
    obtain ⟨slot, atPosition, isError⟩ := found
    exact ⟨position, slot, (Nat.zero_add position).symm, atPosition, isError⟩

theorem ofFunction_cases (types : TypeTable) (function : Function) :
    ofFunction types function = .none ∨
      ∃ first rest, (ofFunction types function).positions = first :: rest ∧
        (ofFunction types function).hasError = true := by
  simp only [ofFunction]
  cases TypeTable.positionsFrom (fun slot => types.isError slot.type) 0 function.results with
  | nil => exact Or.inl rfl
  | cons first rest =>
      refine Or.inr ⟨first, rest, ?_⟩
      cases rest with
      | nil => by_cases alone : function.results.length = 1 <;> simp [alone, positions, hasError]
      | cons second rest => exact ⟨rfl, rfl⟩

theorem hasError_ofFunction (types : TypeTable) (function : Function) :
    (ofFunction types function).hasError = function.returnsError types := by
  have nonempty : (ofFunction types function).hasError = true ↔
      ∃ position, position ∈ (ofFunction types function).positions := by
    cases ofFunction_cases types function with
    | inl none => simp [none, hasError, positions]
    | inr some =>
        obtain ⟨first, rest, listed, hasError⟩ := some
        rw [hasError, listed]
        exact ⟨fun _ => ⟨first, List.mem_cons_self ..⟩, fun _ => rfl⟩
  rw [Bool.eq_iff_iff, nonempty, Function.returnsError, List.any_eq_true]
  constructor
  · intro found
    obtain ⟨position, member⟩ := found
    obtain ⟨slot, atPosition, isError⟩ := mem_positions.mp member
    exact ⟨slot, List.mem_of_getElem? atPosition, isError⟩
  · intro found
    obtain ⟨slot, member, isError⟩ := found
    obtain ⟨position, atPosition⟩ := List.mem_iff_getElem?.mp member
    exact ⟨position, mem_positions.mpr ⟨slot, atPosition, isError⟩⟩

end ErrorShape

/-! ### Definitions -/

theorem DefinitionIndex.mem_resolve {index : DefinitionIndex} {var : VarId}
    {definition : Definition} :
    definition ∈ index.resolve var ↔ (var, definition) ∈ index.entries := by
  rw [resolve, Sorted.mem_dropRepeats, List.mem_mergeSort, List.mem_filterMap]
  constructor
  · intro found
    obtain ⟨⟨owner, entry⟩, member, kept⟩ := found
    dsimp only at kept
    split at kept
    · rename_i same
      cases kept
      rw [← same]
      exact member
    · cases kept
  · intro member
    exact ⟨(var, definition), member, by simp⟩

end ErrorWrapping
