import ErrorWrapping.Proofs.Rendering

/-
Reading a lowered dump.

The units of a program, read from their arenas, are the trees of the dump. What each reference
stands for is said by the tables of the program alone: a symbol key by the last symbol of that
key, a variable by its place in the unit's table, a type name by resolving it once more.
-/

namespace ErrorWrapping

/-! ### The last entry of a key -/

/-- The last entry with a key, and its place in the list. -/
def lastOf? {α : Type} (key : α → String) (entries : List α) (text : String) : Option (Nat × α) :=
  (entries.zipIdx.reverse.find? fun entry => key entry.1 == text).map Prod.swap

section

variable {α : Type} {key : α → String} {entries : List α} {text : String}

theorem lastOf?_nil : lastOf? key [] text = none := rfl

theorem lastOf?_append_singleton (entry : α) :
    lastOf? key (entries ++ [entry]) text =
      if key entry == text then some (entries.length, entry) else lastOf? key entries text := by
  unfold lastOf?
  rw [List.zipIdx_append, List.reverse_append]
  simp only [List.zipIdx_cons, List.zipIdx_nil, List.reverse_cons, List.reverse_nil,
    List.nil_append, List.cons_append, List.find?_cons]
  split <;> rename_i same <;> simp [same]

theorem getElem?_of_lastOf? {index : Nat} {entry : α}
    (found : lastOf? key entries text = some (index, entry)) : entries[index]? = some entry := by
  obtain ⟨⟨_, _⟩, member, same⟩ := Option.map_eq_some_iff.mp found
  cases same
  exact List.mem_zipIdx_iff_getElem?.mp (List.mem_reverse.mp (List.mem_of_find?_eq_some member))

end

/-- The last symbol of a key. -/
def SymbolTable.last? (table : SymbolTable) (key : String) : Option (SymbolId × Symbol) :=
  (lastOf? Symbol.key table.symbols.toList key).map fun entry => (⟨entry.1⟩, entry.2)

def FileSet.last? (set : FileSet) (path : String) : Option FileId :=
  (lastOf? SourceFile.path set.files.toList path).map fun entry => ⟨entry.1⟩

theorem SymbolTable.last?_add (table : SymbolTable) (symbol : Symbol) (key : String) :
    (table.add symbol).2.last? key =
      if symbol.key == key then some (⟨table.symbols.size⟩, symbol) else table.last? key := by
  simp only [last?, add, Array.toList_push, lastOf?_append_singleton]
  split <;> simp

theorem SymbolTable.get?_of_last? {table : SymbolTable} {key : String} {id : SymbolId}
    {symbol : Symbol} (found : table.last? key = some (id, symbol)) :
    table.get? id = some symbol := by
  obtain ⟨⟨index, entry⟩, listed, same⟩ := Option.map_eq_some_iff.mp found
  cases same
  rw [get?, ← Array.getElem?_toList]
  exact getElem?_of_lastOf? listed

theorem FileSet.last?_add (set : FileSet) (path text name : String) :
    (set.add path text).2.last? name =
      if path == name then some ⟨set.files.size⟩ else set.last? name := by
  simp only [last?, add, SourceFile.ofText, Array.toList_push, lastOf?_append_singleton]
  split <;> simp

namespace Dump

/-! ### Keys and paths -/

theorem lowerFiles_ids (files : List FileEntry) (path : String) :
    (lowerFiles files).2[path]? = (lowerFiles files).1.last? path := by
  refine List.foldlRecOn files _ (motive := fun state : FileSet × Std.HashMap String FileId =>
    state.2[path]? = state.1.last? path) (by simp [FileSet.last?, FileSet.empty, lastOf?_nil])
    fun state listed file _ => ?_
  simp only [Std.HashMap.getElem?_insert, FileSet.last?_add, listed]
  rfl

/-- Every key stands for the last symbol that has it. -/
def SymbolNames.Latest (state : SymbolNames) : Prop :=
  ∀ key, state.ids[key]? = (state.symbols.last? key).map (·.1)

theorem SymbolNames.Latest.register {state : SymbolNames} (latest : state.Latest)
    (decls : List TypeDecl) (entry : SymbolEntry) : (state.register decls entry).Latest := by
  intro key
  generalize made : Symbol.mk entry.package entry.name entry.receiver entry.signature
    (resolveAll decls entry.results state.names).1 = symbol
  have inserted : (state.register decls entry).ids[key]? =
      if symbol.key == key then some ⟨state.symbols.symbols.size⟩ else state.ids[key]? := by
    rw [← made]
    exact Std.HashMap.getElem?_insert
  have added : (state.register decls entry).symbols = (state.symbols.add symbol).2 := by
    rw [← made]
    rfl
  rw [inserted, added, SymbolTable.last?_add, latest key]
  split <;> rfl

theorem latest_lowerSymbols (dump : Dump) : (lowerSymbols dump).Latest := by
  refine List.foldlRecOn dump.units _ ?_ fun state latest unit _ => ?_
  · refine List.foldlRecOn dump.symbols _ ?_ fun state latest entry _ => ?_
    · intro key
      simp [SymbolTable.last?, SymbolTable.empty, lastOf?_nil]
    · simp only [SymbolNames.addEntry]
      split <;> exact latest.register dump.types entry
  · refine List.foldlRecOn (unit.functions.map (·.signature)) _ latest
      fun state latest function _ => ?_
    unfold SymbolNames.addDeclared
    split
    · exact latest
    · exact latest.register dump.types _

/-! ### Units -/

theorem unitFiles_run (fileIds : Std.HashMap String FileId) (unit : String) (paths : List String)
    (state : Lowering) :
    ((unitFiles fileIds unit paths).run state).1 = paths.filterMap (fileIds[·]?) ∧
      ((unitFiles fileIds unit paths).run state).2.names = state.names := by
  induction paths generalizing state with
  | nil => exact ⟨rfl, rfl⟩
  | cons path rest ih =>
      unfold unitFiles
      cases found : fileIds[path]? with
      | none =>
          rw [List.filterMap_cons_none found]
          exact ih _
      | some file =>
          rw [List.filterMap_cons_some found]
          exact ⟨congrArg (file :: ·) (ih state).1, (ih state).2⟩

/-- Variables get the numbers of their places in the dump. -/
theorem lowerVars_ids (place : Place) (entries done : List VarEntry) {tables : Tables}
    {state : Lowering}
    (listed : ∀ id, tables.varIds[id]? =
      (lastOf? VarEntry.id done id).map fun entry => ⟨entry.1⟩)
    (size : state.arena.vars.size = done.length) (id : String) :
    ((lowerVars tables place entries).run state).1[id]? =
      (lastOf? VarEntry.id (done ++ entries) id).map fun entry => ⟨entry.1⟩ := by
  induction entries generalizing tables done state with
  | nil =>
      rw [List.append_nil]
      exact listed id
  | cons entry rest ih =>
      unfold lowerVars
      have further : done ++ entry :: rest = (done ++ [entry]) ++ rest := by simp
      rw [further]
      refine ih (done ++ [entry]) (fun other => ?_) ?_
      · rw [Std.HashMap.getElem?_insert, lastOf?_append_singleton, listed other, ← size]
        split <;> rfl
      · rw [List.length_append, List.length_singleton, ← size]
        exact Array.size_push ..

theorem lowerVars_vars (place : Place) (entries : List VarEntry) (tables : Tables)
    (state : Lowering) :
    state.names.Precedes ((lowerVars tables place entries).run state).2.names ∧
      ∀ final : Lowering, ((lowerVars tables place entries).run state).2.names.Precedes
          final.names →
        ((lowerVars tables place entries).run state).2.arena.vars.toList =
          state.arena.vars.toList ++
            entries.map ((tables.glossary final).unitVar place.file) := by
  induction entries generalizing tables state with
  | nil =>
      refine ⟨.refl _, fun final _ => ?_⟩
      rw [List.map_nil, List.append_nil]
      rfl
  | cons entry rest ih =>
      have resolved := precedes_resolve tables.decls [] entry.type state.names
      obtain ⟨precedes, listed⟩ := ih
        { tables with varIds := tables.varIds.insert entry.id ⟨state.arena.vars.size⟩ }
        ⟨(resolve tables.decls [] entry.type state.names).2, (state.arena.addVar
          ⟨entry.name.getD entry.id, lowerVarKind entry.kind,
            (resolve tables.decls [] entry.type state.names).1,
            spanOf tables place entry.at?⟩).2, state.warnings⟩
      unfold lowerVars
      refine ⟨resolved.trans precedes, fun final kept => (listed final kept).trans ?_⟩
      have type := resolve_of_precedes (precedes.trans kept)
      rw [List.map_cons, Arena.addVar, Array.toList_push, List.append_assoc, List.singleton_append,
        ← type]
      rfl

theorem renders_lowerDecls {tables : Tables} {base : Extent} (place : Place)
    (functions : List Function) (known : Within base tables) (inside : Within base place) :
    Renders tables base (lowerDecls tables place functions) fun final ids =>
      final.arena.Eventually fun reader => ids.mapM reader.function =
        some (functions.map ((tables.glossary final).function place.file true)) := by
  induction functions generalizing base with
  | nil => exact renders_pure fun _ => Arena.eventually_of_forall fun _ => rfl
  | cons function rest ih =>
      unfold lowerDecls
      refine (renders_lowerFunction place true function known inside).bind
        (yields_lowerFunction place true function known inside) fun id first grows _ => ?_
      refine (ih (Located.mono grows known) (Located.mono grows inside)).map
        fun final ids restRead functionRead => ?_
      exact (functionRead.and restRead).imp fun _ read => mapM_cons_of_some read.1 read.2

/-- The tables and the place with which the trees of a unit are lowered. -/
def lowerTables (tables : Tables) (entry : UnitEntry) : LowerM (Tables × Place) := do
  let files ← unitFiles tables.fileIds entry.path entry.files
  let place : Place := ⟨files.head?, none⟩
  let varIds ← lowerVars { tables with unit := entry.path, varIds := ∅ } place entry.vars
  return ({ tables with unit := entry.path, varIds }, place)

theorem renders_lowerTrees {tables : Tables} {base : Extent} (place : Place) (entry : UnitEntry)
    (known : Within base tables) (inside : Within base place) :
    Renders tables base (lowerTrees tables place entry) fun final result =>
      (final.arena.Eventually fun reader => result.1.mapM reader.function =
        some (entry.functions.map ((tables.glossary final).function place.file true))) ∧
      final.arena.Eventually fun reader => result.2.mapM reader.stmt =
        some ((tables.glossary final).stmts place.file entry.globals) := by
  unfold lowerTrees
  refine (renders_lowerDecls place entry.functions known inside).bind
    (yields_lowerDecls place entry.functions known inside) fun decls first grows _ => ?_
  refine (renders_lowerStmts place entry.globals (Located.mono grows known)
    (Located.mono grows inside)).map fun final globals globalsRead declsRead => ?_
  exact ⟨declsRead, globalsRead⟩

/-- What the references of a unit stand for, by the tables of the program and by what has been
resolved. -/
def UnitEntry.glossary (entry : UnitEntry) (decls : List TypeDecl) (names : TypeNames)
    (program : Program) (unit : Package) : Glossary where
  unit := entry.path
  var? id := (lastOf? VarEntry.id entry.vars id).bind fun listed =>
    (unit.arena.vars[listed.1]?).map (⟨listed.1⟩, ·)
  symbol? := program.symbols.last?
  type spelling := (resolve decls [] spelling names).1
  file? := program.files.last?
  span file position :=
    match file, position with
    | some file, some position => program.files.spanAt file position.line position.column
    | _, _ => .dummy
  symbols := program.symbols
  types := program.types

/-- Keys and paths stand for the last symbol and the last file that have them. -/
structure Tables.Latest (tables : Tables) : Prop where
  symbols : ∀ key, tables.symbolIds[key]? = (tables.symbols.last? key).map (·.1)
  files : ∀ path, tables.fileIds[path]? = tables.files.last? path

/-- A program with the tables that its units were lowered with. -/
structure Tables.Of (tables : Tables) (names : TypeNames) (program : Program) : Prop where
  files : program.files = tables.files
  symbols : program.symbols = tables.symbols
  types : program.types = names.types

theorem Tables.Latest.glossary_eq {tables : Tables} {names : TypeNames} {program : Program}
    (latest : tables.Latest) (tablesOf : tables.Of names program) {entry : UnitEntry}
    {unit : Package} {varIds : Std.HashMap String VarId} (warnings : List Warning)
    (listed : ∀ id, varIds[id]? = (lastOf? VarEntry.id entry.vars id).map fun var => ⟨var.1⟩) :
    ({ tables with unit := entry.path, varIds }.glossary ⟨names, unit.arena, warnings⟩) =
      entry.glossary tables.decls names program unit := by
  have vars : ∀ id, (varIds[id]?).bind (fun var => (unit.arena.var? var).map (var, ·)) =
      (lastOf? VarEntry.id entry.vars id).bind fun listed =>
        (unit.arena.vars[listed.1]?).map (⟨listed.1⟩, ·) := by
    intro id
    rw [listed, Option.bind_map]
    rfl
  have symbols : ∀ key, (tables.symbolIds[key]?).bind (fun symbol =>
      (tables.symbols.get? symbol).map (symbol, ·)) = program.symbols.last? key := by
    intro key
    rw [latest.symbols, tablesOf.symbols]
    cases found : tables.symbols.last? key with
    | none => rfl
    | some entry =>
        rw [Option.map_some, Option.bind_some, SymbolTable.get?_of_last? found]
        rfl
  have spans : ∀ file position, spanOf tables ⟨file, none⟩ position =
      match file, position with
      | some file, some position => program.files.spanAt file position.line position.column
      | _, _ => .dummy := by
    intro file position
    rw [tablesOf.files]
    rfl
  have files : ∀ path, tables.fileIds[path]? = program.files.last? path := by
    intro path
    rw [latest.files, tablesOf.files]
  rw [UnitEntry.glossary, Tables.glossary, Glossary.mk.injEq]
  exact ⟨rfl, funext vars, funext symbols, rfl, funext files,
    funext fun file => funext (spans file), tablesOf.symbols.symm, tablesOf.types.symm⟩

/-- A unit whose variables and trees are those of its entry. -/
structure UnitEntry.Shows (entry : UnitEntry) (glossary : Glossary) (unit : Package) : Prop where
  path : unit.path = entry.path
  vars : unit.arena.vars.toList = entry.vars.map (glossary.unitVar (glossary.unitFile entry))
  trees : unit.read? = some (glossary.unitTrees entry)

/-- What is there before the trees of a unit are lowered. -/
structure Tables.Prepared (tables : Tables) (entry : UnitEntry) (names : TypeNames)
    (made : (Tables × Place) × Lowering) : Prop where
  grounded : made.2.Grounded tables.symbols.size
  known : Within (made.2.extent tables.symbols.size) made.1.1
  inside : Within (made.2.extent tables.symbols.size) made.1.2
  precedes : names.Precedes made.2.names
  same : made.1.1 = { tables with unit := entry.path, varIds := made.1.1.varIds }
  listed : ∀ id, made.1.1.varIds[id]? =
    (lastOf? VarEntry.id entry.vars id).map fun var => ⟨var.1⟩
  file : made.1.2.file = (entry.files.filterMap (tables.fileIds[·]?)).head?
  vars : ∀ final : Lowering, made.2.names.Precedes final.names → made.2.arena.vars.toList =
    entry.vars.map ((tables.glossary final).unitVar made.1.2.file)

theorem prepared_lowerTables {tables : Tables} {names : TypeNames} (ordered : names.Ordered)
    (ready : tables.Ready names.types) (entry : UnitEntry) (warnings : List Warning) :
    tables.Prepared entry names ((lowerTables tables entry).run ⟨names, .empty, warnings⟩) := by
  have start : Lowering.Grounded ⟨names, .empty, warnings⟩ tables.symbols.size :=
    ⟨ordered, Arena.grounded_empty⟩
  have known : Within (Lowering.extent ⟨names, .empty, warnings⟩ tables.symbols.size)
      { tables with unit := entry.path, varIds := ∅ } :=
    ⟨ready.symbolIds, fun _ _ found => by simp at found, ready.typed⟩
  have opens := yields_unitFiles tables.fileIds entry.path entry.files _ start (.refl _)
  obtain ⟨files, sameNames⟩ :=
    unitFiles_run tables.fileIds entry.path entry.files ⟨names, .empty, warnings⟩
  have sameArena := keeps_unitFiles tables.fileIds entry.path entry.files ⟨names, .empty, warnings⟩
  have adds := yields_lowerVars
    ⟨((unitFiles tables.fileIds entry.path entry.files).run ⟨names, .empty, warnings⟩).1.head?,
      none⟩ entry.vars (Located.mono opens.grows known) _ opens.grounded (.refl _)
  obtain ⟨precedes, vars⟩ := lowerVars_vars
    ⟨((unitFiles tables.fileIds entry.path entry.files).run ⟨names, .empty, warnings⟩).1.head?,
      none⟩ entry.vars { tables with unit := entry.path, varIds := ∅ }
    ((unitFiles tables.fileIds entry.path entry.files).run ⟨names, .empty, warnings⟩).2
  have kept := Located.mono (opens.grows.trans adds.grows) known
  rw [sameNames] at precedes
  rw [sameArena] at vars
  refine ⟨adds.grounded, ⟨kept.symbolIds, adds.within, kept.results⟩,
    (fun _ impossible => by cases impossible), precedes, rfl, fun id => ?_,
    congrArg List.head? files, vars⟩
  refine lowerVars_ids _ entry.vars [] (fun other => ?_) ?_ id
  · simp [lastOf?_nil]
  · exact congrArg (fun arena : Arena => arena.vars.size) sameArena

theorem lowerUnit_parts {tables : Tables} {entry : UnitEntry} (id : UnitId) {state : Lowering}
    {made : (Tables × Place) × Lowering} {built : (List FuncId × List StmtId) × Lowering}
    (preparing : (lowerTables tables entry).run state = made)
    (building : (lowerTrees made.1.1 made.1.2 entry).run made.2 = built) :
    let result := (lowerUnit tables id entry).run state
    result.1.decls = built.1.1 ∧ result.1.globals = built.1.2 ∧
      result.1.arena = built.2.arena ∧ result.2 = built.2 := by
  rw [lowerUnit_eq, ← building, ← preparing]
  exact ⟨rfl, rfl, rfl, rfl⟩

theorem shows_lowerUnit {tables : Tables} {names : TypeNames} (ordered : names.Ordered)
    (ready : tables.Ready names.types) (latest : tables.Latest) (id : UnitId) (entry : UnitEntry)
    (warnings : List Warning) :
    let result := (lowerUnit tables id entry).run ⟨names, .empty, warnings⟩
    names.Precedes result.2.names ∧
      ∀ (later : TypeNames) (program : Program), result.2.names.Precedes later →
        tables.Of later program →
        entry.Shows (entry.glossary tables.decls later program result.1) result.1 := by
  intro result
  have prepared := prepared_lowerTables ordered ready entry warnings
  generalize preparing : (lowerTables tables entry).run ⟨names, .empty, warnings⟩ = made
    at prepared
  obtain ⟨leads, shown⟩ := renders_lowerTrees made.1.2 entry prepared.known prepared.inside made.2
    (by rw [prepared.same]; exact prepared.grounded) (by rw [prepared.same]; exact .refl _)
  generalize building : (lowerTrees made.1.1 made.1.2 entry).run made.2 = built at leads shown
  obtain ⟨decls, globals, arena, after⟩ := lowerUnit_parts id preparing building
  rw [after]
  refine ⟨prepared.precedes.trans leads.names, fun later program kept tablesOf => ?_⟩
  have glossary : made.1.1.glossary ⟨later, built.2.arena, built.2.warnings⟩ =
      entry.glossary tables.decls later program result.1 := by
    rw [prepared.same, ← arena]
    exact latest.glossary_eq tablesOf built.2.warnings prepared.listed
  have file : made.1.2.file =
      (entry.glossary tables.decls later program result.1).unitFile entry := by
    rw [prepared.file, ← glossary, prepared.same]
    rfl
  obtain ⟨declsRead, globalsRead⟩ := shown ⟨later, built.2.arena, built.2.warnings⟩
    ⟨.refl _, kept⟩
  -- Once the unit is done its glossary no longer depends on how far lowering was.
  rw [glossary, file] at declsRead globalsRead
  refine ⟨(header_lowerUnit tables id entry _).2, ?_, ?_⟩
  · have vars := prepared.vars ⟨later, built.2.arena, built.2.warnings⟩ (leads.names.trans kept)
    rw [arena, leads.arena.vars, vars, ← file, ← glossary, prepared.same]
    rfl
  · refine (planted_lowerUnit tables id entry names warnings).read?_eq ?_ ?_
    · change result.1.arena.Eventually fun reader => result.1.decls.mapM reader.function = _
      rw [arena, decls]
      exact declsRead
    · change result.1.arena.Eventually fun reader => result.1.globals.mapM reader.stmt = _
      rw [arena, globals]
      exact globalsRead

/-! ### Programs -/

/-- The type names that are known once units have been lowered one after the other. -/
def namesAfter (tables : Tables) (next : UnitId) (names : TypeNames) (warnings : List Warning) :
    List UnitEntry → TypeNames
  | [] => names
  | entry :: rest =>
    let state := ((lowerUnit tables next entry).run ⟨names, .empty, warnings⟩).2
    namesAfter tables ⟨next.index + 1⟩ state.names state.warnings rest

/-- The type names that are known at the end. -/
def typeNames (dump : Dump) : TypeNames :=
  namesAfter dump.tables ⟨0⟩ (lowerSymbols dump).names [] dump.units

theorem nextUnit_addUnit (program : Program) (unit : Package) :
    (program.addUnit unit).nextUnit = ⟨program.nextUnit.index + 1⟩ :=
  congrArg UnitId.mk (Array.size_push ..)

theorem lowerUnits_tables (tables : Tables) (units : List UnitEntry) (program : Program)
    (names : TypeNames) (warnings : List Warning) :
    let lowered := (lowerUnits tables program names warnings units).1
    lowered.files = program.files ∧ lowered.symbols = program.symbols ∧
      lowered.types = (namesAfter tables program.nextUnit names warnings units).types := by
  induction units generalizing program names warnings with
  | nil => exact ⟨rfl, rfl, rfl⟩
  | cons entry rest ih =>
      unfold lowerUnits namesAfter
      rw [← nextUnit_addUnit]
      exact ih _ _ _

theorem precedes_namesAfter {tables : Tables} (latest : tables.Latest) (units : List UnitEntry)
    (next : UnitId) {names : TypeNames} (warnings : List Warning) (ordered : names.Ordered)
    (ready : tables.Ready names.types) :
    names.Precedes (namesAfter tables next names warnings units) := by
  induction units generalizing next names warnings with
  | nil => exact .refl names
  | cons entry rest ih =>
      obtain ⟨_, orderedAfter, grows⟩ := grounded_lowerUnit ordered ready next entry warnings
      unfold namesAfter
      exact (shows_lowerUnit ordered ready latest next entry warnings).1.trans
        (ih _ _ orderedAfter (ready.mono grows))

theorem shows_lowerUnits {tables : Tables} (latest : tables.Latest) (units : List UnitEntry)
    {program : Program} {names : TypeNames} (warnings : List Warning) (ordered : names.Ordered)
    (ready : tables.Ready names.types) {final : TypeNames} {whole : Program}
    (last : namesAfter tables program.nextUnit names warnings units = final)
    (tablesOf : tables.Of final whole) :
    ∃ lowered, (lowerUnits tables program names warnings units).1.units.toList =
        program.units.toList ++ lowered ∧
      List.Forall₂ (fun entry unit =>
        entry.Shows (entry.glossary tables.decls final whole unit) unit) units lowered := by
  induction units generalizing program names warnings with
  | nil => exact ⟨[], (List.append_nil _).symm, .nil⟩
  | cons entry rest ih =>
      obtain ⟨_, orderedAfter, grows⟩ :=
        grounded_lowerUnit ordered ready program.nextUnit entry warnings
      obtain ⟨_, shown⟩ := shows_lowerUnit ordered ready latest program.nextUnit entry warnings
      unfold lowerUnits
      unfold namesAfter at last
      generalize (lowerUnit tables program.nextUnit entry).run ⟨names, .empty, warnings⟩ = result
        at orderedAfter grows shown last ⊢
      have precedes := precedes_namesAfter latest rest ⟨program.nextUnit.index + 1⟩
        result.2.warnings orderedAfter (ready.mono grows)
      rw [last] at precedes
      rw [← nextUnit_addUnit program result.1] at last
      obtain ⟨lowered, same, all⟩ := ih result.2.warnings orderedAfter (ready.mono grows) last
      refine ⟨result.1 :: lowered, same.trans ?_, .cons (shown final whole precedes tablesOf) all⟩
      simp [Program.addUnit]

theorem latest_tables (dump : Dump) : dump.tables.Latest :=
  ⟨latest_lowerSymbols dump, lowerFiles_ids dump.files⟩

/-- The units of a program, read from their arenas, are what the dump says, whether or not it is
accepted. -/
theorem shows_toProgram (dump : Dump) :
    dump.toProgram.1.types = dump.typeNames.types ∧
      List.Forall₂ (fun entry unit =>
        entry.Shows (entry.glossary dump.types dump.typeNames dump.toProgram.1 unit) unit)
        dump.units dump.toProgram.1.units.toList := by
  have ordered := ordered_lowerSymbols dump
  have lowered : (lowerUnits dump.tables
      { files := (lowerFiles dump.files).1, symbols := (lowerSymbols dump).symbols }
      (lowerSymbols dump).names [] dump.units).1 = dump.toProgram.1 := rfl
  obtain ⟨files, symbols, types⟩ := lowerUnits_tables dump.tables dump.units
    { files := (lowerFiles dump.files).1, symbols := (lowerSymbols dump).symbols }
    (lowerSymbols dump).names []
  rw [lowered] at files symbols types
  obtain ⟨units, listed, shown⟩ := shows_lowerUnits (latest_tables dump) dump.units []
    ordered.names ⟨ordered.ids, ordered.typed⟩ rfl ⟨files, symbols, types⟩
  rw [lowered] at listed
  refine ⟨types, ?_⟩
  rw [listed]
  exact shown

theorem shows_of_lower {dump : Dump} {program : Program} {warnings : List Warning}
    (accepted : dump.lower = .ok (program, warnings)) :
    List.Forall₂ (fun entry unit =>
      entry.Shows (entry.glossary dump.types dump.typeNames program unit) unit)
      dump.units program.units.toList := by
  rw [← toProgram_of_lower accepted]
  exact (shows_toProgram dump).2

/-- Every unit of an accepted dump, read from its arena, is what the dump says, with each
reference replaced by what the tables of the program give for it. -/
theorem read?_of_lower {dump : Dump} {program : Program} {warnings : List Warning}
    (accepted : dump.lower = .ok (program, warnings)) :
    program.types = dump.typeNames.types ∧
      List.Forall₂ (fun entry unit =>
        entry.Shows (entry.glossary dump.types dump.typeNames program unit) unit)
        dump.units program.units.toList := by
  have same : dump.toProgram.1 = program := congrArg Prod.fst (fault?_of_lower accepted).2
  rw [← same]
  exact shows_toProgram dump

/-! ### A small program -/

/-- A unit with a function without body, and one that defines a variable by a literal. The literal
switches over a call, and returns a variable that the unit does not have. -/
def nested : Dump :=
  { files := []
    types := []
    symbols := []
    units :=
      [{ path := "m"
         files := []
         imports := []
         vars := [⟨"v0", some "run", .local, "func() error", none⟩]
         functions :=
           [.mk ⟨"Bare", none, none, none, none, [], [⟨"error", none⟩]⟩ none,
            .mk ⟨"Run", none, none, none, none, [], []⟩
              (some [.define [.var "v0" none] [.funcLit
                (.mk ⟨"", none, none, none, none, [], [⟨"error", none⟩]⟩
                  (some [.switch none (some (.call (.func "m.Bare" none) [] none none))
                    [[], [.ret [.var "v1" none] none]] none])) none] none])]
         globals := [.var [.blank none] [.literal (some "int") none] none] }] }

theorem nested.accepted : nested.lower = .ok (nested.toProgram.1, nested.toProgram.2) :=
  lower_of_fault? (by decide)

theorem nested.read_back :
    nested.lower = .ok (nested.toProgram.1, nested.toProgram.2) ∧
      nested.toProgram.1.types = nested.typeNames.types ∧
      List.Forall₂ (fun entry unit => entry.Shows
        (entry.glossary nested.types nested.typeNames nested.toProgram.1 unit) unit)
        nested.units nested.toProgram.1.units.toList :=
  ⟨nested.accepted, read?_of_lower nested.accepted⟩

end Dump

end ErrorWrapping
