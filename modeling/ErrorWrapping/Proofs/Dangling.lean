import ErrorWrapping.Proofs.DumpReturns
import ErrorWrapping.Proofs.TracedSources

/-
Returned references that name nothing.

A variable that the unit does not declare, or a call of a function that the dump does not know,
has no type. An expression without type is no error, so it is passed over wherever it is returned:
a `return` lets out what its other results let out. A function that lets out nothing else is
wrapped, and there is no diagnostic on it.
-/

namespace ErrorWrapping

/-! ### Names that a dump does not know -/

namespace Dump

/-- The keys of symbol entries and of declared functions. -/
def keys (dump : Dump) : List String :=
  dump.symbols.map (fun entry => Symbol.keyOf entry.package entry.receiver entry.name) ++
    dump.units.flatMap fun unit => unit.functions.map fun function =>
      Symbol.keyOf unit.path function.signature.receiver function.signature.name

/-- A variable that is not declared, or a call without type of its own of an unknown key. -/
def Expr.dangling (keys vars : List String) : Expr → Bool
  | .var id _ => !vars.contains id
  | .call (.func key _) _ none _ => !keys.contains key
  | .call (.select _ key _) _ none _ => !keys.contains key
  | _ => false

namespace SymbolNames

variable {state : SymbolNames} {key : String}

theorem ids_register_of_ne (decls : List TypeDecl) {entry : SymbolEntry}
    (differs : Symbol.keyOf entry.package entry.receiver entry.name ≠ key) :
    (state.register decls entry).ids[key]? = state.ids[key]? := by
  simp [register, Std.HashMap.getElem?_insert, differs]

theorem ids_addEntry_of_ne (decls : List TypeDecl) {entry : SymbolEntry}
    (differs : Symbol.keyOf entry.package entry.receiver entry.name ≠ key) :
    (state.addEntry decls entry).ids[key]? = state.ids[key]? := by
  simp only [addEntry]
  split <;> exact ids_register_of_ne decls differs

theorem ids_addDeclared_of_ne (decls : List TypeDecl) {package : String} {function : Signature}
    (differs : Symbol.keyOf package function.receiver function.name ≠ key) :
    (state.addDeclared decls package function).ids[key]? = state.ids[key]? := by
  simp only [addDeclared]
  split
  · rfl
  · exact ids_register_of_ne decls differs

end SymbolNames

theorem foldl_keeps {α β γ : Type} {step : β → α → β} (read : β → γ) (entries : List α)
    (keeps : ∀ state, ∀ entry ∈ entries, read (step state entry) = read state) (start : β) :
    read (entries.foldl step start) = read start := by
  induction entries generalizing start with
  | nil => rfl
  | cons entry rest ih =>
      rw [List.foldl_cons, ih fun state other member =>
        keeps state other (List.mem_cons_of_mem _ member)]
      exact keeps start entry (List.mem_cons_self ..)

theorem lowerSymbols_ids_of_not_mem {dump : Dump} {key : String} (unknown : key ∉ dump.keys) :
    (lowerSymbols dump).ids[key]? = none := by
  rw [keys, List.mem_append, not_or] at unknown
  obtain ⟨noEntry, noFunction⟩ := unknown
  have ofUnits : ∀ state : SymbolNames,
      (dump.units.foldl (·.addUnit dump.types ·) state).ids[key]? = state.ids[key]? := by
    refine foldl_keeps (fun state : SymbolNames => state.ids[key]?) dump.units ?_
    intro state unit inUnits
    refine foldl_keeps (fun state : SymbolNames => state.ids[key]?) _ ?_ state
    intro state signature inFunctions
    obtain ⟨function, member, rfl⟩ := List.mem_map.mp inFunctions
    refine SymbolNames.ids_addDeclared_of_ne dump.types fun same => noFunction ?_
    exact List.mem_flatMap.mpr ⟨unit, inUnits, List.mem_map.mpr ⟨function, member, same⟩⟩
  have ofEntries : ∀ state : SymbolNames,
      (dump.symbols.foldl (·.addEntry dump.types ·) state).ids[key]? = state.ids[key]? := by
    refine foldl_keeps (fun state : SymbolNames => state.ids[key]?) dump.symbols ?_
    intro state entry member
    refine SymbolNames.ids_addEntry_of_ne dump.types fun same => noEntry ?_
    exact List.mem_map.mpr ⟨entry, member, same⟩
  rw [lowerSymbols, ofUnits, ofEntries]
  simp

/-- A glossary with no other keys and variables than these. -/
structure Glossary.Knows (glossary : Glossary) (keys vars : List String) : Prop where
  symbols : ∀ key, key ∉ keys → glossary.symbol? key = none
  vars : ∀ id, id ∉ vars → glossary.var? id = none

theorem knows_glossary {dump : Dump} {program : Program} {warnings : List Warning}
    (accepted : dump.lower = .ok (program, warnings)) (entry : UnitEntry) (unit : Package) :
    (entry.glossary dump.types dump.typeNames program unit).Knows dump.keys
      (entry.vars.map (·.id)) where
  symbols key unknown := by
    have latest := latest_lowerSymbols dump key
    rw [lowerSymbols_ids_of_not_mem unknown] at latest
    have symbols : program.symbols = (lowerSymbols dump).symbols := by
      rw [← toProgram_of_lower accepted]
      exact (lowerUnits_tables ..).2.1
    change program.symbols.last? key = none
    rw [symbols]
    exact Option.map_eq_none_iff.mp latest.symm
  vars id undeclared := by
    have missing : lastOf? VarEntry.id entry.vars id = none := by
      refine Option.map_eq_none_iff.mpr (List.find?_eq_none.mpr fun listed member same => ?_)
      refine undeclared (List.mem_map.mpr ⟨listed.1, ?_, beq_iff_eq.mp same⟩)
      exact List.mem_of_getElem? (List.mem_zipIdx_iff_getElem?.mp (List.mem_reverse.mp member))
    exact Option.bind_eq_none_iff.mpr fun listed found => nomatch missing.symm.trans found

namespace Glossary

variable {glossary : Glossary} {keys vars : List String}

/-- A reference that names nothing has no type. -/
theorem Knows.type_of_dangling (knows : glossary.Knows keys vars)
    (invalid : glossary.types.get? .invalid = some .invalid) {expr : Expr}
    (dangling : expr.dangling keys vars = true) (file : Option FileId) :
    (glossary.expr file expr).type = .invalid := by
  -- A call takes its type from its callee, which names nothing and has no type either.
  have ofCall {callee : ExprTree} (unnamed : callee.calledSymbol? = none)
      (untyped : callee.type = .invalid) : glossary.callType callee = .invalid := by
    simp [callType, calledResults?, unnamed, untyped, invalid]
  unfold Expr.dangling at dangling
  split at dangling
  · rename_i id at?
    have unknown := knows.vars id (by simpa using dangling)
    simp [Glossary.expr, varRef, unknown, ExprTree.type]
  · rename_i key at? args callAt
    have unknown := knows.symbols key (by simpa using dangling)
    refine ofCall ?_ ?_ <;> simp [Glossary.expr, funcRef, unknown] <;> rfl
  · rename_i base key at? args callAt
    have unknown := knows.symbols key (by simpa using dangling)
    refine ofCall ?_ ?_ <;> simp [Glossary.expr, select, unknown] <;> rfl
  · cases dangling

end Glossary

end Dump

/-! ### What leaves through a `return` -/

namespace Dump.Glossary

variable (glossary : Glossary) (entry : UnitEntry) (function : Function)

/-- The errors that leave a function through one result of a `return`. -/
def resultTraces (ret : Return) (result : Expr) : List ErrorTrace :=
  let file := glossary.fileWithin (glossary.unitFile entry) function.signature.file
  UnitTrees.exprTraces glossary.types (glossary.unitTrees entry) (glossary.span file ret.at?)
    (glossary.expr file result)

/-- The errors that leave a function through a `return`. -/
def returnTraces (ret : Return) : List ErrorTrace :=
  let file := glossary.fileWithin (glossary.unitFile entry) function.signature.file
  if ret.results.isEmpty then
    (glossary.results function.signature.results).flatMap
      (UnitTrees.slotTraces glossary.types (glossary.unitTrees entry) (glossary.span file ret.at?))
  else ret.results.flatMap (glossary.resultTraces entry function ret)

theorem exprs_eq_map (file : Option FileId) (exprs : List Expr) :
    glossary.exprs file exprs = exprs.map (glossary.expr file) := by
  induction exprs with
  | nil => rfl
  | cons first rest ih => rw [Glossary.exprs, List.map_cons, ih]

theorem name_function (file : Option FileId) (declared : Bool) :
    (glossary.function file declared function).name = function.signature.name := by
  obtain ⟨signature, body⟩ := function
  rw [Glossary.function]
  rfl

/-- The errors that leave the tree of a function are those that leave through its returns. -/
theorem traces_function :
    UnitTrees.traces glossary.types (glossary.unitTrees entry)
        (glossary.function (glossary.unitFile entry) true function) =
      function.returns.flatMap (glossary.returnTraces entry function) := by
  rw [UnitTrees.traces, returns_function, List.flatMap_map, results_function]
  refine List.flatMap_congr fun ret _ => ?_
  rw [UnitTrees.returnTraces, returnTraces, returned, exprs_eq_map, List.isEmpty_map,
    List.flatMap_map]
  rfl

variable {glossary entry function}

theorem getElem?_unitTrees {index : Nat} (declared : entry.functions[index]? = some function) :
    (glossary.unitTrees entry).1[index]? =
      some (glossary.function (glossary.unitFile entry) true function) := by
  rw [unitTrees, List.getElem?_map, declared]
  rfl

/-- A result without type lets no error out. -/
theorem resultTraces_of_untyped (invalid : glossary.types.get? .invalid = some .invalid)
    {result : Expr} (untyped : ∀ file, (glossary.expr file result).type = .invalid)
    (ret : Return) : glossary.resultTraces entry function ret result = [] := by
  have noError : glossary.types.isError .invalid = false := by
    simp [TypeTable.isError, invalid]
  have noTuple : glossary.types.isErrorTuple .invalid = false := by
    simp [TypeTable.isErrorTuple, invalid]
  simp only [resultTraces, UnitTrees.exprTraces, untyped, noError, noTuple]
  split <;> rfl

theorem returnTraces_of_silent {ret : Return} (nonempty : ret.results ≠ [])
    (silent : ∀ result ∈ ret.results, glossary.resultTraces entry function ret result = []) :
    glossary.returnTraces entry function ret = [] := by
  rw [returnTraces, if_neg (by simpa using nonempty)]
  exact List.flatMap_eq_nil_iff.mpr silent

/-- A `return` lets out what its results but a silent one let out. -/
theorem returnTraces_eraseIdx {ret : Return} {position : Nat} {result : Expr}
    (found : ret.results[position]? = some result)
    (silent : glossary.resultTraces entry function ret result = []) :
    glossary.returnTraces entry function ret =
      (ret.results.eraseIdx position).flatMap (glossary.resultTraces entry function ret) := by
  obtain ⟨inside, same⟩ := List.getElem?_eq_some_iff.mp found
  have split : ret.results =
      ret.results.take position ++ result :: ret.results.drop (position + 1) := by
    rw [← same, List.getElem_cons_drop, List.take_append_drop]
  have nonempty : ret.results.isEmpty = false := by
    rw [split]
    simp
  rw [returnTraces, nonempty, if_neg Bool.false_ne_true, List.eraseIdx_eq_take_drop_succ]
  nth_rewrite 1 [split]
  rw [List.flatMap_append, List.flatMap_cons, silent, List.nil_append, List.flatMap_append]

end Dump.Glossary

/-! ### What is said of them -/

/-- Whatever the facts, checking a unit in scope gives each of its declared functions the sources
that leave it through its returns. -/
theorem exists_checkUnit?_of_declared {dump : Dump} {program : Program} {warnings : List Warning}
    (accepted : dump.lower = .ok (program, warnings)) {entry : Dump.UnitEntry}
    (listed : entry ∈ dump.units) {policy : Policy} (inScope : policy.inScope entry.path = true)
    {index : Nat} {function : Dump.Function} (declared : entry.functions[index]? = some function)
    {σ : Type} [FactStore σ] (facts : σ) :
    ∃ unit ∈ program.units, unit.path = entry.path ∧
      ∃ decl info, unit.decls[index]? = some decl ∧ unit.arena.function? decl = some info ∧
      info.name = function.signature.name ∧
      ∃ outcome summaries, checkUnit? program unit.id policy facts = some outcome ∧
        outcome.value = .ofSummaries (program.view unit) policy summaries ∧
        (info.returnsError program.types = true → ∃ summary ∈ summaries, summary.func = decl) ∧
        ∀ summary ∈ summaries, summary.func = decl →
          summary.sources.map ErrorSource.trace = function.returns.flatMap
            ((entry.glossary dump.types dump.typeNames program unit).returnTraces entry
              function) := by
  have lowered := Dump.lowered_of_lower accepted
  have grounded : program.Grounded :=
    Dump.toProgram_of_lower accepted ▸ Dump.grounded_toProgram dump
  obtain ⟨unit, inUnits, shows⟩ := mem_of_forall₂_left (Dump.shows_of_lower accepted) listed
  have member : unit ∈ program.units := Array.mem_toList_iff.mp inUnits
  have planted : (program.view unit).unit.Planted := lowered.planted unit member
  have reads : (program.view unit).ReadsUnit _ := UnitView.readsUnit_of_read? shows.trees
  obtain ⟨summarized, made, traced⟩ := UnitView.exists_summaries planted
    (grounded.units unit member).arena (Dump.numbered_of_lower accepted unit member) reads policy
    facts
  obtain ⟨decl, isDecl, readsDecl⟩ := exists_getElem?_of_forall₂ reads.decls.flip
    (Dump.Glossary.getElem?_unitTrees declared)
  have traces := traced decl _ readsDecl
  obtain ⟨info, known, name, results⟩ := UnitView.exists_function_of_reads readsDecl
  refine ⟨unit, member, shows.path, decl, info, isDecl, known, ?_, _, summarized.value,
    Program.checkUnit?_of_summarize? (lowered.unit?_of_mem member)
      (by rw [shows.path]; exact inScope) made, rfl,
    fun returnsError => traces.summarized ?_, fun summary inSummaries same => ?_⟩
  · rw [name, Dump.Glossary.name_function]
  · rw [FunctionTree.returnsError, ← results]
    exact returnsError
  · exact (traces.sources summary inSummaries same).trans
      ((entry.glossary dump.types dump.typeNames program unit).traces_function entry function)

/-- References that name nothing and are returned from a declared function, outside of literals,
are passed over: a `return` lets out what its other results let out. So when nothing else leaves the
function, it is wrapped and there is no diagnostic on it. -/
theorem checkUnit?_of_dangling {dump : Dump} {program : Program} {warnings : List Warning}
    (accepted : dump.lower = .ok (program, warnings)) {entry : Dump.UnitEntry}
    (listed : entry ∈ dump.units) {policy : Policy} (inScope : policy.inScope entry.path = true)
    {index : Nat} {function : Dump.Function} (declared : entry.functions[index]? = some function)
    {ret : Dump.Return} (returned : ret ∈ function.returns) {position : Nat} {expr : Dump.Expr}
    (result : ret.results[position]? = some expr)
    (dangling : expr.dangling dump.keys (entry.vars.map (·.id)) = true)
    {σ : Type} [FactStore σ] (facts : σ) :
    ∃ unit ∈ program.units, unit.path = entry.path ∧
      ∃ decl info, unit.decls[index]? = some decl ∧ unit.arena.function? decl = some info ∧
      info.name = function.signature.name ∧
      ∃ outcome summaries, checkUnit? program unit.id policy facts = some outcome ∧
        outcome.value = .ofSummaries (program.view unit) policy summaries ∧
        (info.returnsError program.types = true → ∃ summary ∈ summaries, summary.func = decl) ∧
        ∀ summary ∈ summaries, summary.func = decl →
          let glossary := entry.glossary dump.types dump.typeNames program unit
          (∃ earlier later, function.returns = earlier ++ ret :: later ∧
            summary.sources.map ErrorSource.trace =
              earlier.flatMap (glossary.returnTraces entry function) ++
                (ret.results.eraseIdx position).flatMap
                  (glossary.resultTraces entry function ret) ++
                later.flatMap (glossary.returnTraces entry function)) ∧
          ((∀ other ∈ function.returns, other.results ≠ [] ∧ ∀ result ∈ other.results,
              result.dangling dump.keys (entry.vars.map (·.id)) = true ∨
                glossary.resultTraces entry function other result = []) →
            summary.verdict = .wrapped ∧ summary.nakedSources = []) := by
  obtain ⟨unit, member, path, decl, info, isDecl, known, name, outcome, summaries, checked, value,
    summarized, traced⟩ := exists_checkUnit?_of_declared accepted listed inScope declared facts
  refine ⟨unit, member, path, decl, info, isDecl, known, name, outcome, summaries, checked, value,
    summarized, fun summary inSummaries same => ?_⟩
  have sources := traced summary inSummaries same
  have knows := Dump.knows_glossary accepted entry unit
  have grounded : program.Grounded :=
    Dump.toProgram_of_lower accepted ▸ Dump.grounded_toProgram dump
  have invalid : (entry.glossary dump.types dump.typeNames program unit).types.get? .invalid =
      some .invalid := grounded.types.invalid
  generalize entry.glossary dump.types dump.typeNames program unit = glossary
    at sources knows invalid ⊢
  have silent (other : Dump.Return) {result : Dump.Expr}
      (dangling : result.dangling dump.keys (entry.vars.map (·.id)) = true) :
      glossary.resultTraces entry function other result = [] :=
    Dump.Glossary.resultTraces_of_untyped invalid (knows.type_of_dangling invalid dangling) other
  refine ⟨?_, fun others => ?_⟩
  · obtain ⟨earlier, later, split⟩ := List.append_of_mem returned
    refine ⟨earlier, later, split, ?_⟩
    rw [sources, split, List.flatMap_append, List.flatMap_cons,
      Dump.Glossary.returnTraces_eraseIdx result (silent ret dangling), List.append_assoc]
  · have nothing : function.returns.flatMap (glossary.returnTraces entry function) = [] := by
      refine List.flatMap_eq_nil_iff.mpr fun other inReturns => ?_
      obtain ⟨nonempty, each⟩ := others other inReturns
      exact Dump.Glossary.returnTraces_of_silent nonempty fun result inResults =>
        (each result inResults).elim (silent other) id
    have none := List.map_eq_nil_iff.mp (sources.trans nothing)
    simp [Summary.verdict, Summary.nakedSources, none, Verdict.ofWrapped]

/-! ### A small program -/

/-- A unit with a function that calls a function no entry declares, and one that returns a variable
that the unit does not have. -/
def Dump.missingNames : Dump :=
  { files := [⟨"svc/a/a.go", none,
      ["package a", "", "func F() error \x7b", "\treturn lib.Missing()", "\x7d", "",
        "func G() error \x7b", "\treturn err", "\x7d"]⟩]
    types := []
    symbols := []
    units :=
      [{ path := "svc/a"
         files := ["svc/a/a.go"]
         imports := []
         vars := []
         functions :=
           [.mk ⟨"F", none, none, none, some ⟨3, 1⟩, [], [⟨"error", none⟩]⟩
              (some [.ret [.call (.func "lib.Missing" (some ⟨4, 9⟩)) [] none (some ⟨4, 9⟩)]
                (some ⟨4, 2⟩)]),
            .mk ⟨"G", none, none, none, some ⟨7, 1⟩, [], [⟨"error", none⟩]⟩
              (some [.ret [.var "err" (some ⟨8, 9⟩)] (some ⟨8, 2⟩)])]
         globals := [] }] }

namespace Dump.missingNames

def program : Program := missingNames.toProgram.1

def policy : Policy := ⟨"svc", ["func lib.Wrap(err error) error"]⟩

theorem accepted : missingNames.lower = .ok (program, missingNames.toProgram.2) :=
  lower_of_fault? (by decide)

theorem wrapped_of_unknown_callee :
    ∃ unit ∈ program.units, unit.path = "svc/a" ∧ ∃ decl ∈ unit.decls, ∃ function,
      unit.arena.function? decl = some function ∧ function.name = "F" ∧
      ∃ outcome summaries, checkUnit? program unit.id policy FactTable.empty = some outcome ∧
        outcome.value = .ofSummaries (program.view unit) policy summaries ∧
        (function.returnsError program.types = true →
          ∃ summary ∈ summaries, summary.func = decl) ∧
        ∀ summary ∈ summaries, summary.func = decl →
          summary.verdict = .wrapped ∧ summary.nakedSources = [] := by
  have inScope : policy.inScope "svc/a" = true := by decide
  obtain ⟨unit, member, path, decl, info, isDecl, known, name, outcome, summaries, checked, value,
    summarized, said⟩ :=
    checkUnit?_of_dangling accepted (List.mem_singleton.mpr rfl) inScope
      List.getElem?_cons_zero (List.mem_singleton.mpr rfl) List.getElem?_cons_zero (by decide)
      FactTable.empty
  refine ⟨unit, member, path, decl, List.mem_of_getElem? isDecl, info, known, name, outcome,
    summaries, checked, value, summarized, fun summary inSummaries same => ?_⟩
  refine (said summary inSummaries same).2 fun other inReturns => ?_
  obtain rfl := List.mem_singleton.mp inReturns
  refine ⟨List.cons_ne_nil _ _, fun result inResults => .inl ?_⟩
  obtain rfl := List.mem_singleton.mp inResults
  decide

theorem report_without_diagnostics :
    missingNames.lower = .ok (program, missingNames.toProgram.2) ∧
      "lib.Missing" ∉ missingNames.keys ∧
      (checkUnit? program ⟨0⟩ policy FactTable.empty).map (·.value) =
        some ⟨"svc/a", [⟨"F", some ⟨0⟩, .wrapped, ⟨12, 13⟩⟩, ⟨"G", some ⟨1⟩, .wrapped, ⟨54, 55⟩⟩],
          []⟩ := by
  refine ⟨accepted, by decide, ?_⟩
  cbv

end Dump.missingNames

end ErrorWrapping
