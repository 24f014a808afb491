import ErrorWrapping.Proofs.RenamedRuns
import ErrorWrapping.Proofs.SymbolOrders

/-
Units in another order.

Each unit is lowered after those before it, so its symbols and types are numbered after theirs. What
was lowered before shows in nothing else: whenever it is lowered, a unit becomes the same package up
to these numbers. Two dumps with the same units in different orders therefore give programs that
differ only in the numbers of symbols, types and units.
-/

namespace ErrorWrapping.Dump

/-- A package that lowering gives for a unit some time after the names of `first` were known, and
before those of `final` are. -/
def UnitEntry.Makes (entry : UnitEntry) (tables : Tables) (first final : TypeNames)
    (unit : Package) : Prop :=
  ∃ (id : UnitId) (names : TypeNames) (warnings : List Warning),
    names.Faithful tables.decls ∧ first.Precedes names ∧
    ((lowerUnit tables id entry).run ⟨names, .empty, warnings⟩).1 = unit ∧
    ((lowerUnit tables id entry).run ⟨names, .empty, warnings⟩).2.names.Precedes final

section

variable {rename : SymbolId → SymbolId} {tables : Tables} {others : SymbolTable}
  {ids : Std.HashMap String SymbolId} {first first' final final' : TypeNames}

theorem Lowering.renames_empty {decls : List TypeDecl} {symbols others : SymbolTable}
    {names names' : TypeNames} (faithful : names.Faithful decls) (faithful' : names'.Faithful decls)
    (same : symbols.Renames rename names.types names'.types others)
    (warnings warnings' : List Warning) :
    Lowering.Renames rename decls symbols others ⟨names, .empty, warnings⟩
      ⟨names', .empty, warnings'⟩ :=
  ⟨faithful, faithful', same, ⟨.nil, rfl, .nil, .nil, rfl, rfl⟩⟩

/-- A unit lowered in two programs becomes the same package, up to numbers. -/
theorem UnitEntry.Makes.renames {entry : UnitEntry} {unit unit' : Package}
    (made : entry.Makes tables first final unit)
    (made' : entry.Makes (tables.recast others ids) first' final' unit')
    (known : ∀ key : String, ids[key]? = (tables.symbolIds[key]?).map rename)
    (ordered : first.types.Ordered) (ordered' : first'.types.Ordered)
    (same : tables.symbols.Renames rename first.types first'.types others) :
    unit.Renames rename final.types final'.types unit' := by
  obtain ⟨id, names, warnings, faithful, after, rfl, before⟩ := made
  obtain ⟨id', names', warnings', faithful', after', rfl, before'⟩ := made'
  have start := Lowering.renames_empty faithful faithful'
    (same.mono ⟨ordered, after.types⟩ ⟨ordered', after'.types⟩) warnings warnings'
  obtain ⟨units, state⟩ := lockstep_lowerUnit known id id' entry _ _ start
  exact units.mono ⟨state.faithful.types, before.types⟩ ⟨state.otherFaithful.types, before'.types⟩

theorem faithful_lowerUnit {names : TypeNames} (faithful : names.Faithful tables.decls)
    (self : tables.symbols.Renames id names.types names.types tables.symbols) (number : UnitId)
    (entry : UnitEntry) (warnings : List Warning) :
    ((lowerUnit tables number entry).run ⟨names, .empty, warnings⟩).2.names.Faithful
      tables.decls := by
  have known : ∀ key : String, tables.symbolIds[key]? = (tables.symbolIds[key]?).map id :=
    fun key => Option.map_id_apply.symm
  have start := Lowering.renames_empty faithful faithful self warnings warnings
  exact (lockstep_lowerUnit known number number entry _ _ start).state.faithful

theorem makes_lowerUnits (latest : tables.Latest) (units : List UnitEntry) {program : Program}
    {names : TypeNames} (warnings : List Warning) (ready : tables.Ready names.types)
    (faithful : names.Faithful tables.decls) (after : first.Precedes names)
    (self : tables.symbols.Renames id names.types names.types tables.symbols)
    (last : namesAfter tables program.nextUnit names warnings units = final) :
    ∃ lowered, (lowerUnits tables program names warnings units).1.units.toList =
        program.units.toList ++ lowered ∧
      List.Forall₂ (UnitEntry.Makes · tables first final) units lowered := by
  induction units generalizing program names warnings with
  | nil => exact ⟨[], (List.append_nil _).symm, .nil⟩
  | cons entry rest ih =>
      have ordered : names.Ordered := faithful.toOrdered
      obtain ⟨_, orderedAfter, grows⟩ :=
        grounded_lowerUnit ordered ready program.nextUnit entry warnings
      have grown := (shows_lowerUnit ordered ready latest program.nextUnit entry warnings).1
      have faithfulAfter := faithful_lowerUnit faithful self program.nextUnit entry warnings
      have leads : names.types.Leads _ := ⟨ordered.types, grown.types⟩
      unfold lowerUnits
      unfold namesAfter at last
      have precedes := precedes_namesAfter latest rest ⟨program.nextUnit.index + 1⟩
        ((lowerUnit tables program.nextUnit entry).run ⟨names, .empty, warnings⟩).2.warnings
        orderedAfter (ready.mono grows)
      rw [last] at precedes
      rw [← nextUnit_addUnit program
        ((lowerUnit tables program.nextUnit entry).run ⟨names, .empty, warnings⟩).1] at last
      obtain ⟨lowered, same, all⟩ := ih _ (ready.mono grows) faithfulAfter (after.trans grown)
        (self.mono leads leads) last
      exact ⟨_ :: lowered, same.trans (by simp [Program.addUnit]),
        .cons ⟨program.nextUnit, names, warnings, faithful, after, rfl, precedes⟩ all⟩

end

/-! ### Programs -/

/-- What lowering a dump makes of its parts. -/
structure Makes (dump : Dump) (program : Program) : Prop where
  files : program.files = (lowerFiles dump.files).1
  symbols : program.symbols = (lowerSymbols dump).symbols
  types : program.types = dump.typeNames.types
  precedes : (lowerSymbols dump).names.Precedes dump.typeNames
  units : List.Forall₂ (UnitEntry.Makes · dump.tables (lowerSymbols dump).names dump.typeNames)
    dump.units program.units.toList

theorem renames_self (dump : Dump) :
    (lowerSymbols dump).symbols.Renames id (lowerSymbols dump).names.types
      (lowerSymbols dump).names.types (lowerSymbols dump).symbols :=
  let holds := holds_lowerSymbols dump
  @SymbolNames.Holds.renames dump.types _ _ _ _ holds holds id fun _ => rfl

theorem makes_toProgram (dump : Dump) : dump.Makes dump.toProgram.1 := by
  have ordered := ordered_lowerSymbols dump
  have ready : dump.tables.Ready (lowerSymbols dump).names.types := ⟨ordered.ids, ordered.typed⟩
  obtain ⟨files, symbols, types⟩ := lowerUnits_tables dump.tables dump.units
    { files := (lowerFiles dump.files).1, symbols := (lowerSymbols dump).symbols }
    (lowerSymbols dump).names []
  obtain ⟨units, listed, made⟩ : ∃ lowered, dump.toProgram.1.units.toList = [] ++ lowered ∧
      List.Forall₂ (UnitEntry.Makes · dump.tables (lowerSymbols dump).names dump.typeNames)
        dump.units lowered :=
    makes_lowerUnits (latest_tables dump) dump.units [] ready (holds_lowerSymbols dump).faithful
      (.refl _) (renames_self dump) rfl
  exact ⟨files, symbols, types,
    precedes_namesAfter (latest_tables dump) dump.units _ [] ordered.names ready, listed ▸ made⟩

theorem Makes.leads {dump : Dump} {program : Program} (makes : dump.Makes program) :
    (lowerSymbols dump).names.types.Leads program.types :=
  ⟨(holds_lowerSymbols dump).faithful.types, makes.types ▸ makes.precedes.types⟩

theorem rearranged_units {dump : Dump} {units : List UnitEntry}
    (once : (dump.units.map (·.path)).Nodup) (perm : dump.units.Perm units) :
    Rearranged UnitEntry.path [] dump.units units :=
  ⟨perm, once, fun _ _ => List.not_mem_nil⟩

/-- The same units in another order give the same program, up to numbers. -/
theorem exists_renames {dump : Dump} {units : List UnitEntry}
    (once : (dump.units.map (·.path)).Nodup) (apart : KeysApart dump.units)
    (perm : dump.units.Perm units) :
    ∃ (rename : Equiv.Perm SymbolId) (move : Equiv.Perm UnitId),
      dump.toProgram.1.Renames rename move ({ dump with units } : Dump).toProgram.1 := by
  obtain ⟨rename, known, same⟩ := exists_renaming apart perm
  have moved := rearranged_units once perm
  have made := makes_toProgram dump
  have made' := makes_toProgram { dump with units }
  refine ⟨rename, ⟨fun id => ⟨renumber UnitEntry.path [] dump.units units id.index⟩,
    fun id => ⟨renumber UnitEntry.path [] units dump.units id.index⟩,
    fun id => congrArg UnitId.mk (moved.renumber_renumber id.index),
    fun id => congrArg UnitId.mk (moved.symm.renumber_renumber id.index)⟩, ?_, ?_, fun id => ?_⟩
  · exact made'.files.trans made.files.symm
  · rw [made.symbols, made'.symbols]
    exact same.mono made.leads made'.leads
  · have here := rel_of_forall₂ made.units id.index
    have there := rel_of_forall₂ made'.units (renumber UnitEntry.path [] dump.units units id.index)
    have sameEntry := moved.getElem?_renumber id.index
    rw [List.nil_append, List.nil_append] at sameEntry
    rw [sameEntry] at there
    rw [Program.unit?, Program.unit?, ← Array.getElem?_toList, ← Array.getElem?_toList,
      made.types, made'.types]
    exact rel_of_rels here there fun _ _ _ one two =>
      one.renames two known made.leads.ordered made'.leads.ordered same

end ErrorWrapping.Dump
