import Mathlib
import ErrorWrapping.Proofs.Schedules
import ErrorWrapping.Proofs.SinglePass

/-
The least sets of wrapped functions.

A function with an error result is wrapped when each of its error sources is a call of a known
function that is on the list of wrappers or is wrapped itself. The least set closed under this
rule is the intersection of all sets closed under it. For one unit it is a set of functions, with
the wrapped functions of other units given; for a program it is a set of symbols. Functions
without error result have no verdict and are in neither set.
-/

namespace ErrorWrapping

namespace Package

/-- The symbol of a declared function. -/
def Declares (unit : Package) (id : SymbolId) : Prop :=
  ∃ decl ∈ unit.decls, unit.symbolOf? decl = some id

/-- Declared functions have symbols of the unit's own package, and no two of them the same. -/
structure Distinct (unit : Package) (symbols : SymbolTable) : Prop where
  own : ∀ decl ∈ unit.decls, ∃ (id : SymbolId) (symbol : Symbol),
    unit.symbolOf? decl = some id ∧ symbols.get? id = some symbol ∧ symbol.package = unit.path
  apart : ∀ left ∈ unit.decls, ∀ right ∈ unit.decls,
    unit.symbolOf? left = unit.symbolOf? right → left = right

end Package

namespace UnitView

/-- A function of the unit with an error result. -/
def Fallible (view : UnitView) (func : FuncId) (function : Function) : Prop :=
  view.arena.function? func = some function ∧ function.returnsError view.types = true

/-- A call that is an error source of a function of the unit. -/
def Calls (view : UnitView) (target : CallTarget) : Prop :=
  ∃ func function, view.Fallible func function ∧ view.Source function (some target)

/-- No error source calls a function of the unit through an interface. -/
def Direct (view : UnitView) : Prop :=
  ∀ (target : CallTarget) (id : SymbolId), view.Calls target → target.symbol = some id →
    target.throughInterface = true → ¬ view.unit.Declares id

/-- Every error source of a function is a call of a function that is on the list of wrappers or
in a given set. -/
def Trusted (view : UnitView) (policy : Policy) (members : SymbolId → Prop)
    (function : Function) : Prop :=
  ∀ source, view.Source function source → ∃ (target : CallTarget) (id : SymbolId),
    source = some target ∧ target.symbol = some id ∧
      (AllowListed view.symbols policy id ∨ members id)

/-- A set of functions of the unit that is closed under the rule, given the functions of other
units that are wrapped. -/
def Closes (view : UnitView) (policy : Policy) (known : SymbolId → Prop)
    (members : FuncId → Prop) : Prop :=
  ∀ func function, view.Fallible func function →
    view.Trusted policy (fun id => known id ∨
      ∃ decl ∈ view.unit.decls, view.unit.symbolOf? decl = some id ∧ members decl) function →
    members func

/-- The least set of functions of the unit that is closed under the rule. -/
def Derives (view : UnitView) (policy : Policy) (known : SymbolId → Prop) (func : FuncId) :
    Prop :=
  ∀ members, view.Closes policy known members → members func

end UnitView

namespace Program

/-- The unit within the program. -/
def view (program : Program) (unit : Package) : UnitView := ⟨program, unit⟩

/-- A set of symbols that is closed under the rule. -/
def Closes (program : Program) (policy : Policy) (members : SymbolId → Prop) : Prop :=
  ∀ unit, program.Checks policy unit → ∀ func function symbol,
    (program.view unit).Fallible func function → function.symbol = some symbol →
    (program.view unit).Trusted policy members function → members symbol

/-- The least set of symbols that is closed under the rule. -/
def Wraps (program : Program) (policy : Policy) (symbol : SymbolId) : Prop :=
  ∀ members, program.Closes policy members → members symbol

end Program

/-! ### Single passes over units -/

theorem Package.Planted.decl_of_symbol {unit : Package} (planted : unit.Planted) {func : FuncId}
    {function : Function} {id : SymbolId} (found : unit.arena.function? func = some function)
    (named : function.symbol = some id) : func ∈ unit.decls ∧ unit.symbolOf? func = some id := by
  constructor
  · apply planted.declared found
    rw [named]
    exact Option.some_ne_none id
  · rw [Package.symbolOf?, found, Option.bind_some, named]

namespace UnitView

variable {view : UnitView} {work : Workload} {policy : Policy}

theorem target?_resolved {expr : Expr} {target : CallTarget} {id : SymbolId}
    (invokes : view.target? expr = some target) (named : target.symbol = some id) :
    ∃ symbol, view.symbols.get? id = some symbol := by
  obtain ⟨found, called, rest⟩ := Option.bind_eq_some_iff.mp invokes
  obtain ⟨_, _, same⟩ := Option.bind_eq_some_iff.mp rest
  cases same
  obtain ⟨_, _, same⟩ := Option.bind_eq_some_iff.mp called
  cases same
  exact Option.isSome_iff_exists.mp (Option.filter_eq_some_iff.mp named).2

theorem Source.resolved {function : Function} {target : CallTarget} {id : SymbolId}
    (source : view.Source function (some target)) (named : target.symbol = some id) :
    ∃ symbol, view.symbols.get? id = some symbol := by
  obtain ⟨_, _, back⟩ := source
  cases back with
  | call _ invokes => exact target?_resolved invokes named
  | defined _ _ invokes => exact target?_resolved invokes named

theorem Mirrors.source_of_escape (mirrors : view.Mirrors work) {func : FuncId}
    {subject : Subject} {escape : Escape} (found : work.subjects[func]? = some subject)
    (member : escape ∈ subject.escapes) :
    ∃ function, view.Fallible func function ∧ view.Source function escape.target := by
  obtain ⟨function, describes⟩ := mirrors.describes func subject found
  obtain ⟨fallible, source⟩ :=
    (describes.escapes escape.target).mp (List.mem_map.mpr ⟨escape, member, rfl⟩)
  exact ⟨function, ⟨describes.found, describes.hasError ▸ fallible⟩, source⟩

/-- A function of the unit with an error result is a subject of its workload. -/
theorem Mirrors.exists_subject (mirrors : view.Mirrors work) (planted : view.unit.Planted)
    {func : FuncId} {function : Function} (fallible : view.Fallible func function) :
    ∃ subject, work.subjects[func]? = some subject ∧ subject.hasError = true ∧
      view.Describes func function subject := by
  obtain ⟨subject, found⟩ := mirrors.listed func (planted.has fallible.1)
  obtain ⟨function', describes⟩ := mirrors.describes func subject found
  cases fallible.1.symm.trans describes.found
  exact ⟨subject, found, describes.hasError.trans fallible.2, describes⟩

theorem Mirrors.plain (mirrors : view.Mirrors work) (planted : view.unit.Planted)
    (inScope : policy.inScope view.unit.path = true) (distinct : view.unit.Distinct view.symbols)
    (direct : view.Direct) {base : SymbolId → Option Verdict}
    (unrecorded : ∀ id, view.unit.Declares id → base id = none) :
    work.Plain view.symbols policy base := by
  constructor
  · intro func member
    exact mirrors.listed func ((mirrors.order func).mp member)
  · intro id func
    constructor
    · intro declared
      obtain ⟨isDecl, named⟩ := mirrors.declared id func declared
      obtain ⟨subject, found⟩ := mirrors.listed func (Or.inl isDecl)
      obtain ⟨function, describes⟩ := mirrors.describes func subject found
      rw [Package.symbolOf?, show view.unit.arena.function? func = some function from
        describes.found, Option.bind_some, ← describes.symbol] at named
      exact ⟨subject, found, named⟩
    · intro listed
      obtain ⟨subject, found, named⟩ := listed
      obtain ⟨function, describes⟩ := mirrors.describes func subject found
      obtain ⟨isDecl, symbol⟩ :=
        planted.decl_of_symbol describes.found (describes.symbol.symm.trans named)
      obtain ⟨other, declared⟩ := mirrors.known id func isDecl symbol
      obtain ⟨otherDecl, otherNamed⟩ := mirrors.declared id other declared
      rw [distinct.apart other otherDecl func isDecl (otherNamed.trans symbol.symm)] at declared
      exact declared
  · intro id func declared
    obtain ⟨isDecl, named⟩ := mirrors.declared id func declared
    obtain ⟨own, symbol, ownNamed, entry, package⟩ := distinct.own func isDecl
    cases named.symm.trans ownNamed
    exact ⟨symbol, entry, by rw [package]; exact inScope⟩
  · intro id func declared
    exact unrecorded id ⟨func, mirrors.declared id func declared⟩
  · intro func subject escape target id found member called named
    obtain ⟨function, _, source⟩ := mirrors.source_of_escape found member
    rw [called] at source
    exact source.resolved named
  · intro func callee subject escape target id found _ member called named declared
    obtain ⟨function, fallible, source⟩ := mirrors.source_of_escape found member
    rw [called] at source
    cases through : target.throughInterface with
    | false => rfl
    | true =>
        exact absurd ⟨callee, mirrors.declared id callee declared⟩
          (direct target id ⟨func, function, fallible, source⟩ named through)

/-- Derivations over a workload give the least set of the unit. -/
theorem Mirrors.derivable_iff (mirrors : view.Mirrors work) (planted : view.unit.Planted)
    (distinct : view.unit.Distinct view.symbols) {known : SymbolId → Prop} {func : FuncId} :
    work.Derivable view.symbols policy known func ↔ view.Derives policy known func := by
  constructor
  · intro derivable members closed
    induction derivable with
    | @intro func grounded _ ih =>
        obtain ⟨subject, found, fallible, trusted⟩ := grounded
        obtain ⟨function, describes⟩ := mirrors.describes func subject found
        refine closed func function ⟨describes.found, describes.hasError ▸ fallible⟩ ?_
        intro source comes
        obtain ⟨escape, member, rfl⟩ :=
          List.mem_map.mp ((describes.escapes source).mpr ⟨fallible, comes⟩)
        obtain ⟨target, id, called, named, reason⟩ := trusted escape member
        refine ⟨target, id, called, named, ?_⟩
        by_cases listed : AllowListed view.symbols policy id
        · exact Or.inl listed
        by_cases recorded : known id
        · exact Or.inr (Or.inl recorded)
        rcases reason with impossible | impossible | ⟨callee, declared, _⟩
        · exact absurd impossible listed
        · exact absurd impossible recorded
        · obtain ⟨isDecl, symbol⟩ := mirrors.declared id callee declared
          refine Or.inr (Or.inr ⟨callee, isDecl, symbol, ih callee ?_⟩)
          exact ⟨subject, escape, target, id, found, member, called, named, listed, recorded,
            declared⟩
  · intro derives
    apply derives
    intro func function fallible trusted
    obtain ⟨subject, found, hasError, describes⟩ := mirrors.exists_subject planted fallible
    rw [Workload.derivable_iff found hasError]
    intro escape member
    have source := ((describes.escapes escape.target).mp
      (List.mem_map.mpr ⟨escape, member, rfl⟩)).2
    obtain ⟨target, id, called, named, reason⟩ := trusted escape.target source
    refine ⟨target, id, called, named, ?_⟩
    rcases reason with listed | recorded | ⟨decl, isDecl, symbol, derivable⟩
    · exact Or.inl listed
    · exact Or.inr (Or.inl recorded)
    · obtain ⟨callee, declared⟩ := mirrors.known id decl isDecl symbol
      obtain ⟨calleeDecl, calleeSymbol⟩ := mirrors.declared id callee declared
      rw [distinct.apart callee calleeDecl decl isDecl (calleeSymbol.trans symbol.symm)] at declared
      exact Or.inr (Or.inr ⟨decl, declared, derivable⟩)

end UnitView

/-! ### Conditions that can be computed -/

namespace Package

variable {unit : Package}

/-- The symbols of declared functions. -/
def declared (unit : Package) : List SymbolId :=
  unit.decls.filterMap unit.symbolOf?

theorem mem_declared_iff {id : SymbolId} : id ∈ unit.declared ↔ unit.Declares id :=
  List.mem_filterMap

theorem distinct_iff {symbols : SymbolTable} :
    unit.Distinct symbols ↔
      (∀ decl ∈ unit.decls,
        ((unit.symbolOf? decl).bind symbols.get?).map (·.package) = some unit.path) ∧
      ∀ left ∈ unit.decls, ∀ right ∈ unit.decls,
        unit.symbolOf? left = unit.symbolOf? right → left = right := by
  constructor
  · intro distinct
    refine ⟨fun decl isDecl => ?_, distinct.apart⟩
    obtain ⟨id, symbol, named, entry, package⟩ := distinct.own decl isDecl
    rw [named, Option.bind_some, entry, Option.map_some, package]
  · intro conditions
    refine ⟨fun decl isDecl => ?_, conditions.2⟩
    obtain ⟨symbol, found, package⟩ := Option.map_eq_some_iff.mp (conditions.1 decl isDecl)
    obtain ⟨id, named, entry⟩ := Option.bind_eq_some_iff.mp found
    exact ⟨id, symbol, named, entry, package⟩

instance (unit : Package) (symbols : SymbolTable) : Decidable (unit.Distinct symbols) :=
  decidable_of_iff _ distinct_iff.symm

end Package

namespace UnitView

variable {view : UnitView}

/-- The calls that are error sources of functions of the unit. -/
def calls? (view : UnitView) : Option (List CallTarget) := do
  let nodes ← view.unit.allNodes?
  let index ← view.definitionIndex? nodes
  let subjects ← (← view.functionOrder?).mapM (view.subject? index)
  return subjects.flatMap fun subject => subject.escapes.filterMap (·.target)

theorem mem_calls?_iff (planted : view.unit.Planted) {calls : List CallTarget}
    (listed : view.calls? = some calls) {target : CallTarget} :
    target ∈ calls ↔ view.Calls target := by
  obtain ⟨nodes, walked, rest⟩ := Option.bind_eq_some_iff.mp listed
  obtain ⟨index, indexed, rest⟩ := Option.bind_eq_some_iff.mp rest
  obtain ⟨order, ordered, rest⟩ := Option.bind_eq_some_iff.mp rest
  obtain ⟨subjects, all, same⟩ := Option.bind_eq_some_iff.mp rest
  cases same
  have related := mapM_eq_some_iff.mp all
  have targets : ∀ subject : Subject, target ∈ subject.escapes.filterMap (·.target) ↔
      some target ∈ subject.escapes.map (·.target) := by
    intro subject
    rw [List.mem_filterMap, List.mem_map]
  rw [List.mem_flatMap]
  constructor
  · intro found
    obtain ⟨subject, inSubjects, member⟩ := found
    obtain ⟨entry, inOrder, made⟩ := mem_of_forall₂_right related inSubjects
    obtain ⟨_, function, describes⟩ := describes_of_subject? walked indexed
      ((mem_functionOrder?_iff ordered).mp ⟨entry.2, inOrder⟩) made
    obtain ⟨fallible, source⟩ := (describes.escapes _).mp ((targets subject).mp member)
    exact ⟨entry.1, function, ⟨describes.found, describes.hasError ▸ fallible⟩, source⟩
  · intro calls
    obtain ⟨func, function, fallible, source⟩ := calls
    have has := planted.has fallible.1
    obtain ⟨name, inOrder⟩ := (mem_functionOrder?_iff ordered).mpr has
    obtain ⟨subject, inSubjects, made⟩ := mem_of_forall₂_left related inOrder
    obtain ⟨_, function', describes⟩ := describes_of_subject? walked indexed has made
    cases fallible.1.symm.trans describes.found
    refine ⟨subject, inSubjects, (targets subject).mpr ((describes.escapes _).mpr ⟨?_, source⟩)⟩
    exact describes.hasError.trans fallible.2

end UnitView

/-! ### A small program -/

/-- A unit with two functions that call each other and one that wraps, and a unit that imports it
and calls the latter. -/
def Dump.pingPong : Dump :=
  { files := []
    types := []
    symbols := [⟨"e", "Wrap", none, "Wrap", ["error"]⟩]
    units :=
      [{ path := "m/io"
         files := []
         imports := []
         vars := []
         functions :=
           [.mk ⟨"Ping", none, some "Ping", none, none, [], [⟨"error", none⟩]⟩
              (some [.ret [.call (.func "m/io.Pong" none) [] none none] none]),
            .mk ⟨"Pong", none, some "Pong", none, none, [], [⟨"error", none⟩]⟩
              (some [.ret [.call (.func "m/io.Ping" none) [] none none] none]),
            .mk ⟨"Safe", none, some "Safe", none, none, [], [⟨"error", none⟩]⟩
              (some [.ret [.call (.func "e.Wrap" none) [] none none] none])]
         globals := [] },
       { path := "m"
         files := []
         imports := ["m/io"]
         vars := []
         functions :=
           [.mk ⟨"Run", none, some "Run", none, none, [], [⟨"error", none⟩]⟩
              (some [.ret [.call (.func "m/io.Safe" none) [] none none] none])]
         globals := [] }] }

namespace Dump.pingPong

def program : Program := pingPong.toProgram.1

def policy : Policy := ⟨"m", ["Wrap"]⟩

theorem accepted : pingPong.lower = .ok (program, pingPong.toProgram.2) :=
  lower_of_fault? (by decide)

theorem units_eq : program.units.toList.map (fun unit => (unit.path, unit.imports, unit.declared,
      (program.view unit).calls?, decide (unit.Distinct program.symbols))) =
    [("m/io", [], [⟨1⟩, ⟨2⟩, ⟨3⟩],
        some [⟨some ⟨2⟩, false⟩, ⟨some ⟨1⟩, false⟩, ⟨some ⟨0⟩, false⟩], true),
      ("m", ["m/io"], [⟨4⟩], some [⟨some ⟨3⟩, false⟩], true)] := by
  cbv

theorem unit_cases {unit : Package} (member : unit ∈ program.units) :
    (unit.path = "m/io" ∧ unit.imports = [] ∧ unit.declared = [⟨1⟩, ⟨2⟩, ⟨3⟩] ∧
      (program.view unit).calls? =
        some [⟨some ⟨2⟩, false⟩, ⟨some ⟨1⟩, false⟩, ⟨some ⟨0⟩, false⟩] ∧
      unit.Distinct program.symbols) ∨
    (unit.path = "m" ∧ unit.imports = ["m/io"] ∧ unit.declared = [⟨4⟩] ∧
      (program.view unit).calls? = some [⟨some ⟨3⟩, false⟩] ∧
      unit.Distinct program.symbols) := by
  have listed := List.mem_map_of_mem (f := fun unit : Package => (unit.path, unit.imports,
    unit.declared, (program.view unit).calls?, decide (unit.Distinct program.symbols)))
    (Array.mem_toList_iff.mpr member)
  rw [units_eq] at listed
  simpa using listed

theorem exists_unit : ∃ unit, program.Checks policy unit ∧ unit.path = "m/io" := by
  have listed : "m/io" ∈ program.units.toList.map (·.path) := by
    have paths := congrArg (List.map (·.1)) units_eq
    rw [List.map_map] at paths
    change program.units.toList.map (·.path) = ["m/io", "m"] at paths
    rw [paths]
    exact List.mem_cons_self ..
  obtain ⟨unit, member, path⟩ := List.mem_map.mp listed
  refine ⟨unit, ⟨Array.mem_toList_iff.mp member, ?_⟩, path⟩
  rw [path]
  decide

theorem distinct {unit : Package} (checks : program.Checks policy unit) :
    unit.Distinct program.symbols := by
  rcases unit_cases checks.1 with ⟨_, _, _, _, distinct⟩ | ⟨_, _, _, _, distinct⟩
  · exact distinct
  · exact distinct

theorem direct {unit : Package} (checks : program.Checks policy unit) :
    (program.view unit).Direct := by
  intro target id calls _ through
  have planted := (lowered_of_lower accepted).planted unit checks.1
  rcases unit_cases checks.1 with ⟨_, _, _, listed, _⟩ | ⟨_, _, _, listed, _⟩
  · have member := (UnitView.mem_calls?_iff planted listed).mpr calls
    simp only [List.mem_cons, List.not_mem_nil, or_false] at member
    rcases member with rfl | rfl | rfl <;> cases through
  · have member := (UnitView.mem_calls?_iff planted listed).mpr calls
    cases List.mem_singleton.mp member
    cases through

end Dump.pingPong

end ErrorWrapping
