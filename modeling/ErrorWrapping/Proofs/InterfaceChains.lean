import ErrorWrapping.Proofs.ResolutionHistories

/-
Chains that end at an interface.

The underlying type is found by following declared types one by one, at most thirty-one of them:
the last of the thirty-two steps is needed to see that the chain has ended. Whether that type is
an interface follows from the declarations alone. Every declared name on the way is one link, an
interface declaration at the end included, and a name that leads into a circle is no interface.
-/

namespace ErrorWrapping

namespace TypeTable

/-- A chain of so many links from a number to the first number that is not a declared type. The
table may hold chains that run in a circle; these have no end. -/
inductive Chain (table : TypeTable) : Nat → TypeId → TypeId → Prop
  | stop {id : TypeId} (last : ∀ name underlying, table.get? id ≠ some (.named name underlying)) :
      Chain table 0 id id
  | link {links : Nat} {id underlying stop : TypeId} {name : String}
      (found : table.get? id = some (.named name underlying))
      (rest : Chain table links underlying stop) : Chain table (links + 1) id stop

variable {table : TypeTable} {links steps : Nat} {id stop : TypeId}

theorem follow_of_last (last : ∀ name underlying, table.get? id ≠ some (.named name underlying)) :
    table.follow (steps + 1) id = id := by
  unfold follow
  split
  · rename_i name underlying found
    exact absurd found (last name underlying)
  · rfl

theorem follow_of_named {name : String} {underlying : TypeId}
    (found : table.get? id = some (.named name underlying)) :
    table.follow (steps + 1) id = table.follow steps underlying := by
  rw [follow, found]

/-- One step more than there are links is enough to see the end. -/
theorem Chain.follow (chain : table.Chain links id stop) (short : links < steps) :
    table.follow steps id = stop := by
  induction chain generalizing steps with
  | stop last =>
      obtain ⟨fewer, rfl⟩ := Nat.exists_eq_add_of_lt short
      exact follow_of_last last
  | link found _ ih =>
      cases steps with
      | zero => cases short
      | succ steps => rw [follow_of_named found, ih (Nat.lt_of_succ_lt_succ short)]

theorem follow_of_no_chain (never : ∀ links < steps, ∀ stop, ¬ table.Chain links id stop) :
    table.follow steps id = .invalid := by
  induction steps generalizing id with
  | zero => rfl
  | succ steps ih =>
      by_cases last : ∀ name underlying, table.get? id ≠ some (.named name underlying)
      · exact absurd (.stop last) (never 0 (Nat.succ_pos _) id)
      · simp only [ne_eq, not_forall, not_not] at last
        obtain ⟨name, underlying, found⟩ := last
        rw [follow_of_named found]
        exact ih fun links short stop rest =>
          never (links + 1) (Nat.succ_lt_succ short) stop (.link found rest)

/-- What is found as the underlying type is the end of the chain, if that is near enough. -/
structure FindsEnd (table : TypeTable) (id : TypeId) : Prop where
  near : ∀ links ≤ 31, ∀ stop, table.Chain links id stop → table.underlying id = stop
  far : (∀ links ≤ 31, ∀ stop, ¬ table.Chain links id stop) → table.underlying id = .invalid

theorem findsEnd (table : TypeTable) (id : TypeId) : table.FindsEnd id where
  near _ short _ chain := chain.follow (Nat.lt_succ_of_le short)
  far never := follow_of_no_chain fun links short => never links (Nat.le_of_lt_succ short)

end TypeTable

namespace Dump

open Relation (ReflTransGen TransGen)

/-- The declarations lead from a name to an interface, through so many declared names. -/
inductive LeadsToInterface (decls : List TypeDecl) : Nat → String → Prop
  | error : LeadsToInterface decls 0 "error"
  | any {name : String} (undeclared : declaration? decls name = none)
      (isAny : name = "any" ∨ name = "interface\x7b\x7d") : LeadsToInterface decls 0 name
  | interface {name other : String} {methods : List String} (notError : name ≠ "error")
      (found : declaration? decls name = some (.interface other methods)) :
      LeadsToInterface decls 1 name
  | named {count : Nat} {name other underlying : String} (notError : name ≠ "error")
      (found : declaration? decls name = some (.named other underlying))
      (rest : LeadsToInterface decls count (Text.trim underlying)) :
      LeadsToInterface decls (count + 1) name

section

variable {decls : List TypeDecl} {name : String} {count steps : Nat}

theorem LeadsToInterface.namesInterface (leads : LeadsToInterface decls count name)
    (short : count < steps) : namesInterface decls steps name = true := by
  induction leads generalizing steps with
  | error =>
      obtain ⟨fewer, rfl⟩ := Nat.exists_eq_add_of_lt short
      rw [Dump.namesInterface, if_pos rfl]
  | @any name undeclared isAny =>
      obtain ⟨fewer, rfl⟩ := Nat.exists_eq_add_of_lt short
      by_cases isError : name = "error"
      · rw [Dump.namesInterface, if_pos isError]
      · rw [namesInterface_undeclared isError undeclared]
        exact decide_eq_true isAny
  | interface notError found =>
      obtain ⟨fewer, rfl⟩ := Nat.exists_eq_add_of_lt short
      rw [Dump.namesInterface, if_neg notError, found]
      exact decide_eq_true (by omega)
  | named notError found _ ih =>
      cases steps with
      | zero => cases short
      | succ steps =>
          rw [Dump.namesInterface, if_neg notError, found]
          exact ih (Nat.lt_of_succ_lt_succ short)

theorem leadsToInterface_of_namesInterface (answer : namesInterface decls steps name = true) :
    ∃ count < steps, LeadsToInterface decls count name := by
  induction steps generalizing name with
  | zero => cases answer
  | succ steps ih =>
      by_cases isError : name = "error"
      · cases isError
        exact ⟨0, Nat.succ_pos _, .error⟩
      · rw [namesInterface, if_neg isError] at answer
        cases found : declaration? decls name with
        | none =>
            rw [found] at answer
            exact ⟨0, Nat.succ_pos _, .any found (of_decide_eq_true answer)⟩
        | some decl =>
            rw [found] at answer
            cases decl with
            | basic => cases answer
            | struct => cases answer
            | interface =>
                exact ⟨1, Nat.succ_lt_succ (of_decide_eq_true answer), .interface isError found⟩
            | named other underlying =>
                obtain ⟨count, short, rest⟩ := ih answer
                exact ⟨count + 1, Nat.succ_lt_succ short, .named isError found rest⟩

theorem namesInterface_iff :
    namesInterface decls steps name = true ↔ ∃ count < steps, LeadsToInterface decls count name :=
  ⟨leadsToInterface_of_namesInterface, fun ⟨_, short, leads⟩ => leads.namesInterface short⟩

/-- What leads to an interface has a description, so it does not lead into a circle. -/
theorem LeadsToInterface.exists_describes (leads : LeadsToInterface decls count name) :
    ∃ full, Describes decls name full := by
  induction leads with
  | error => exact ⟨_, .error⟩
  | @any name undeclared isAny =>
      have notPointer : ∀ target, name.toList ≠ '*' :: target := by
        rintro target pointer
        rcases isAny with rfl | rfl <;> cases pointer
      have notError : name ≠ "error" := by
        rcases isAny with rfl | rfl <;> decide
      exact ⟨_, .plain notError undeclared notPointer⟩
  | interface notError found => exact ⟨_, .interface notError found⟩
  | named notError found _ ih =>
      obtain ⟨full, described⟩ := ih
      exact ⟨_, .named notError found described⟩

/-- The answer about a name that was resolved, now and after whatever happens next. -/
theorem Resolver.Idle.isInterface_iff {state later : Resolver} (idle : state.Idle decls)
    (spelling : String)
    (history : ReflTransGen (Step decls) (state.call decls spelling).2 later) :
    later.names.types.isInterface (state.call decls spelling).1 = true ↔
      ∃ count ≤ 31, LeadsToInterface decls count (Text.trim spelling) := by
  have given := idle.gives spelling
  obtain ⟨_, precedes⟩ := (idle.call spelling).history history
  have same := precedes.types.interfaceWithin given.faithful.types TypeTable.chainLimit
    given.spells.present
  have answer := same.trans (given.spells.isInterface TypeTable.chainLimit)
  simp only [← Nat.lt_succ_iff]
  exact (Bool.eq_iff_iff.mp answer).trans namesInterface_iff

/-- The underlying type is the end of the chain within the bound, in every table. Which names are
interfaces follows from the declarations, whatever was resolved before or is resolved later; a
name on a circle or leading into one never is. -/
theorem underlying_isInterface_exact :
    (∀ (table : TypeTable) (id : TypeId), table.FindsEnd id) ∧
      ∀ (decls : List TypeDecl) (state : Resolver),
        ReflTransGen (Resolver.Step decls) .initial state →
          ∀ (spelling : String) (later : Resolver),
            ReflTransGen (Resolver.Step decls) (state.call decls spelling).2 later →
              (later.names.types.isInterface (state.call decls spelling).1 = true ↔
                ∃ count ≤ 31, LeadsToInterface decls count (Text.trim spelling)) ∧
              ∀ next, ReflTransGen (Refers decls) (Text.trim spelling) next →
                TransGen (Refers decls) next next →
                  later.names.types.isInterface (state.call decls spelling).1 = false := by
  refine ⟨TypeTable.findsEnd, fun decls state before spelling later after => ?_⟩
  obtain ⟨idle, _⟩ := Resolver.idle_initial.history before
  have exact := idle.isInterface_iff spelling after
  refine ⟨exact, fun next reach circle => ?_⟩
  rw [← Bool.not_eq_true, exact]
  rintro ⟨count, _, leads⟩
  obtain ⟨full, describes⟩ := leads.exists_describes
  exact describes.offCircles next reach circle

end

namespace chained

def label (index : Nat) : String := String.ofList [Char.ofNat (65 + index)]

/-- Thirty-two declarations in a row, the last of them an interface. -/
def decls : List TypeDecl :=
  (List.range 31).map (fun index => .named (label index) (label (index + 1))) ++
    [.interface (label 31) []]

def state : Resolver := (Resolver.initial.call decls (label 0)).2

theorem history : ReflTransGen (Resolver.Step decls) .initial state :=
  .single (.resolve (resolveWithin_of_depth (Nat.le_refl _)))

/-- The first declaration is one link too far away. -/
theorem interfaces_within_bound :
    ReflTransGen (Resolver.Step decls) .initial state ∧
      (state.call decls (label 1)).2.names.types.isInterface (state.call decls (label 1)).1 = true ∧
      (state.call decls (label 0)).2.names.types.isInterface
        (state.call decls (label 0)).1 = false := by
  have exact := underlying_isInterface_exact.2 decls state history
  refine ⟨history, ?_, ?_⟩
  · have near : namesInterface decls 32 (Text.trim (label 1)) = true := by decide +kernel
    obtain ⟨count, short, leads⟩ := namesInterface_iff.mp near
    exact (exact (label 1) _ .refl).1.mpr ⟨count, Nat.le_of_lt_succ short, leads⟩
  · have far : namesInterface decls 32 (Text.trim (label 0)) = false := by decide +kernel
    rw [← Bool.not_eq_true, (exact (label 0) _ .refl).1]
    rintro ⟨count, short, leads⟩
    rw [leads.namesInterface (Nat.lt_succ_of_le short)] at far
    cases far

end chained

end Dump

end ErrorWrapping
