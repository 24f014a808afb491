import ErrorWrapping.Proofs.ReadBack
import ErrorWrapping.Proofs.SpelledTypes

/-
Symbols by key.

A dump refers to a function by a key, its package, receiver and name joined by points. The symbol
table lists the symbol entries of the dump, and after them an entry for each declared function
whose key was not there yet. So two declared functions have one symbol exactly when their keys are
equal, which can be so although packages, receivers or names differ.
-/

namespace ErrorWrapping

section

variable {α β : Type} {key : α → String} {entries : List α} {text : String}

theorem lastOf?_eq_none_iff : lastOf? key entries text = none ↔ text ∉ entries.map key := by
  simp only [lastOf?, Option.map_eq_none_iff, List.find?_eq_none, List.mem_reverse, List.mem_map,
    beq_iff_eq, not_exists, not_and]
  constructor
  · intro none entry member same
    obtain ⟨index, found⟩ := List.getElem?_of_mem member
    exact none (entry, index) (List.mem_zipIdx_iff_getElem?.mpr found) same
  · rintro none ⟨entry, index⟩ listed same
    exact none entry (List.mem_of_getElem? (List.mem_zipIdx_iff_getElem?.mp listed)) same

theorem key_of_lastOf? {index : Nat} {entry : α}
    (found : lastOf? key entries text = some (index, entry)) : key entry = text := by
  obtain ⟨⟨_, _⟩, first, same⟩ := Option.map_eq_some_iff.mp found
  cases same
  have holds := List.find?_some first
  exact beq_iff_eq.mp holds

/-- The only entry of a key is the last one. -/
theorem lastOf?_of_unique {index : Nat} {entry : α} (found : entries[index]? = some entry)
    (unique : ∀ (other : Nat) (rival : α), entries[other]? = some rival → key rival = key entry →
      other = index) : lastOf? key entries (key entry) = some (index, entry) := by
  cases last : lastOf? key entries (key entry) with
  | none =>
      exact absurd (List.mem_map_of_mem (List.mem_of_getElem? found)) (lastOf?_eq_none_iff.mp last)
  | some listed =>
      obtain ⟨other, rival⟩ := listed
      have there := getElem?_of_lastOf? last
      cases unique other rival there (key_of_lastOf? last)
      cases found.symm.trans there
      rfl

end

namespace Dump

/-! ### The entries of the symbol table -/

def SymbolEntry.key (entry : SymbolEntry) : String :=
  Symbol.keyOf entry.package entry.receiver entry.name

/-- The key of a function that a package declares. -/
def Signature.key (package : String) (function : Signature) : String :=
  Symbol.keyOf package function.receiver function.name

/-- The entry for a declared function whose key has none. -/
def Signature.symbolEntry (package : String) (function : Signature) : SymbolEntry :=
  { package
    name := function.name
    receiver := function.receiver
    signature := function.signature.getD (synthesizedSignature package function)
    results := function.results.map (·.type) }

def addFresh (package : String) (entries : List SymbolEntry) (function : Signature) :
    List SymbolEntry :=
  if function.key package ∈ entries.map SymbolEntry.key then entries
  else entries ++ [function.symbolEntry package]

def UnitEntry.signatures (unit : UnitEntry) : List Signature :=
  unit.functions.map (·.signature)

def addFreshUnit (entries : List SymbolEntry) (unit : UnitEntry) : List SymbolEntry :=
  unit.signatures.foldl (addFresh unit.path) entries

/-- The entries of the symbol table in order. -/
def registered (dump : Dump) : List SymbolEntry :=
  dump.units.foldl addFreshUnit dump.symbols

/-- The symbol of an entry, with a type for each of its results. -/
structure SymbolEntry.Registers (entry : SymbolEntry) (decls : List TypeDecl) (types : TypeTable)
    (symbol : Symbol) : Prop where
  package : symbol.package = entry.package
  name : symbol.name = entry.name
  receiver : symbol.receiver = entry.receiver
  signature : symbol.signature = entry.signature
  results : List.Forall₂ (fun spelling id => Spells decls types (Text.trim spelling) id)
    entry.results symbol.results

/-- The symbols are those of the entries, and each key stands for the last entry that has it. -/
structure SymbolNames.Holds (decls : List TypeDecl) (state : SymbolNames)
    (entries : List SymbolEntry) : Prop where
  faithful : state.names.Faithful decls
  symbols : List.Forall₂ (SymbolEntry.Registers · decls state.names.types) entries
    state.symbols.symbols.toList
  ids : ∀ key, state.ids[key]? =
    (lastOf? SymbolEntry.key entries key).map fun entry => ⟨entry.1⟩

variable {decls : List TypeDecl} {state : SymbolNames} {entries : List SymbolEntry}

theorem SymbolEntry.Registers.key {entry : SymbolEntry} {types : TypeTable} {symbol : Symbol}
    (registers : entry.Registers decls types symbol) : symbol.key = entry.key := by
  rw [Symbol.key, registers.package, registers.receiver, registers.name]
  rfl

theorem SymbolEntry.Registers.mono {entry : SymbolEntry} {types later : TypeTable} {symbol : Symbol}
    (registers : entry.Registers decls types symbol) (ordered : types.Ordered)
    (precedes : types.Precedes later) : entry.Registers decls later symbol :=
  { registers with results := registers.results.imp fun _ _ spells => spells.mono ordered precedes }

theorem gives_resolveAll (spellings : List String) {names : TypeNames}
    (faithful : names.Faithful decls) :
    let result := resolveAll decls spellings names
    result.2.Faithful decls ∧ names.Precedes result.2 ∧
      List.Forall₂ (fun spelling id => Spells decls result.2.types (Text.trim spelling) id)
        spellings result.1 := by
  induction spellings generalizing names with
  | nil => exact ⟨faithful, .refl names, .nil⟩
  | cons spelling rest ih =>
      have first := gives_resolve [] spelling faithful (fun _ impossible => by cases impossible)
      obtain ⟨faithfulRest, precedes, spelled⟩ := ih first.faithful
      exact ⟨faithfulRest, (precedes_resolve decls [] spelling names).trans precedes,
        .cons (first.spells.mono first.faithful.types precedes.types) spelled⟩

namespace SymbolNames.Holds

theorem register (holds : state.Holds decls entries) (entry : SymbolEntry) :
    (state.register decls entry).Holds decls (entries ++ [entry]) := by
  obtain ⟨faithful, precedes, spelled⟩ := gives_resolveAll entry.results holds.faithful
  have size : state.symbols.symbols.size = entries.length :=
    (Array.length_toList ..).symm.trans holds.symbols.length_eq.symm
  refine ⟨faithful, ?_, fun key => ?_⟩
  · have earlier := holds.symbols.imp fun _ _ registers =>
      registers.mono holds.faithful.types precedes.types
    have pushed : (state.register decls entry).symbols.symbols.toList =
        state.symbols.symbols.toList ++ [⟨entry.package, entry.name, entry.receiver,
          entry.signature, (resolveAll decls entry.results state.names).1⟩] :=
      Array.toList_push ..
    rw [pushed]
    exact List.rel_append earlier (.cons ⟨rfl, rfl, rfl, rfl, spelled⟩ .nil)
  · have inserted : (state.register decls entry).ids[key]? =
        if entry.key == key then some ⟨state.symbols.symbols.size⟩ else state.ids[key]? :=
      Std.HashMap.getElem?_insert
    rw [inserted, lastOf?_append_singleton, holds.ids, size]
    split <;> rfl

theorem addEntry (holds : state.Holds decls entries) (entry : SymbolEntry) :
    (state.addEntry decls entry).Holds decls (entries ++ [entry]) := by
  have registered := holds.register entry
  simp only [SymbolNames.addEntry]
  split
  · exact ⟨registered.faithful.warn _, registered.symbols, registered.ids⟩
  · exact registered

theorem contains_iff (holds : state.Holds decls entries) (key : String) :
    state.ids.contains key = true ↔ key ∈ entries.map SymbolEntry.key := by
  rw [Std.HashMap.contains_eq_isSome_getElem?, holds.ids, Option.isSome_map,
    Option.isSome_iff_ne_none, ne_eq, lastOf?_eq_none_iff, not_not]

theorem addDeclared (holds : state.Holds decls entries) (package : String) (function : Signature) :
    (state.addDeclared decls package function).Holds decls (addFresh package entries function) := by
  have known := holds.contains_iff (function.key package)
  have same : state.addDeclared decls package function =
      if state.ids.contains (function.key package) then state
      else state.register decls (function.symbolEntry package) := rfl
  rw [same, addFresh]
  by_cases member : function.key package ∈ entries.map SymbolEntry.key
  · rw [if_pos member, if_pos (known.mpr member)]
    exact holds
  · rw [if_neg member, if_neg (mt known.mp member)]
    exact holds.register (function.symbolEntry package)

end SymbolNames.Holds

theorem holds_lowerSymbols (dump : Dump) :
    (lowerSymbols dump).Holds dump.types dump.registered := by
  have start : SymbolNames.Holds dump.types ⟨.empty, ∅, .initial⟩ [] :=
    ⟨TypeNames.faithful_initial, .nil, fun key => by simp [lastOf?_nil]⟩
  have explicit : ∀ (symbols done : List SymbolEntry) (state : SymbolNames),
      state.Holds dump.types done →
      (symbols.foldl (·.addEntry dump.types ·) state).Holds dump.types (done ++ symbols) := by
    intro symbols
    induction symbols with
    | nil =>
        intro done state holds
        rw [List.append_nil]
        exact holds
    | cons entry rest ih =>
        intro done state holds
        rw [List.append_cons]
        exact ih (done ++ [entry]) _ (holds.addEntry entry)
  refine List.foldl_rel (r := fun (state : SymbolNames) entries => state.Holds dump.types entries)
    (explicit dump.symbols [] _ start) fun unit _ state entries holds => ?_
  exact List.foldl_rel (r := fun (state : SymbolNames) entries => state.Holds dump.types entries)
    holds fun function _ state entries holds => holds.addDeclared unit.path function

/-! ### Where entries come from -/

/-- The entries that the declared functions would have. -/
def declaredEntries (dump : Dump) : List SymbolEntry :=
  dump.units.flatMap fun unit => unit.signatures.map (·.symbolEntry unit.path)

theorem addFresh_keys (package : String) (entries : List SymbolEntry) (function : Signature)
    (key : String) :
    key ∈ (addFresh package entries function).map SymbolEntry.key ↔
      key ∈ entries.map SymbolEntry.key ∨ key = function.key package := by
  unfold addFresh
  split
  · rename_i known
    exact ⟨Or.inl, fun either => either.elim id fun same => same ▸ known⟩
  · rw [List.map_append, List.mem_append, List.map_singleton, List.mem_singleton]
    rfl

theorem addFreshUnit_keys (unit : UnitEntry) (entries : List SymbolEntry) (key : String) :
    key ∈ (addFreshUnit entries unit).map SymbolEntry.key ↔
      key ∈ entries.map SymbolEntry.key ∨ key ∈ unit.signatures.map (·.key unit.path) := by
  unfold addFreshUnit
  induction unit.signatures generalizing entries with
  | nil => simp
  | cons function rest ih =>
      rw [List.foldl_cons, ih, addFresh_keys, List.map_cons, List.mem_cons, or_assoc]

theorem foldl_addFreshUnit_keys (units : List UnitEntry) (entries : List SymbolEntry)
    (key : String) :
    key ∈ (units.foldl addFreshUnit entries).map SymbolEntry.key ↔
      key ∈ entries.map SymbolEntry.key ∨
        ∃ unit ∈ units, key ∈ unit.signatures.map (·.key unit.path) := by
  induction units generalizing entries with
  | nil => simp
  | cons unit rest ih =>
      rw [List.foldl_cons, ih, addFreshUnit_keys, List.exists_mem_cons_iff, or_assoc]

theorem mem_registered {dump : Dump} {entry : SymbolEntry} (member : entry ∈ dump.registered) :
    entry ∈ dump.symbols ++ dump.declaredEntries := by
  have all : ∀ other ∈ dump.registered, other ∈ dump.symbols ++ dump.declaredEntries := by
    refine List.foldlRecOn dump.units _ (motive := fun entries =>
      ∀ other ∈ entries, other ∈ dump.symbols ++ dump.declaredEntries)
      (fun _ => List.mem_append_left _) fun entries kept unit isUnit => ?_
    refine List.foldlRecOn unit.signatures _ (motive := fun entries =>
      ∀ other ∈ entries, other ∈ dump.symbols ++ dump.declaredEntries) kept
      fun entries kept function declared other => ?_
    unfold addFresh
    split
    · exact kept other
    · intro listed
      rcases List.mem_append.mp listed with earlier | last
      · exact kept other earlier
      · rw [List.mem_singleton.mp last]
        exact List.mem_append_right _ (List.mem_flatMap.mpr
          ⟨unit, isUnit, List.mem_map_of_mem declared⟩)
  exact all entry member

end Dump

/-! ### The symbols of declared functions -/

/-- The symbol of a function by its place among the functions that a unit declares. -/
def Program.declaredSymbol? (program : Program) (unit function : Nat) : Option SymbolId := do
  let unit ← program.units[unit]?
  let decl ← unit.decls[function]?
  (← unit.arena.function? decl).symbol

namespace Dump

/-- The path of a unit and the signature of a function that it declares. -/
def declared? (dump : Dump) (unit function : Nat) : Option (String × Signature) := do
  let entry ← dump.units[unit]?
  let function ← entry.functions[function]?
  return (entry.path, function.signature)

theorem Reader.symbol_of_functionNode {below : Reader} {arena : Arena}
    {function : ErrorWrapping.Function} {name : String} {symbol : Option SymbolId}
    {params : List VarId} {results : List ResultSlot} {body : Option (List StmtTree)} {span : Span}
    (node : below.functionNode arena function = some (.mk name symbol params results body span)) :
    function.symbol = symbol := by
  obtain ⟨_, _, same⟩ := Option.bind_eq_some_iff.mp node
  cases same
  rfl

theorem UnitEntry.Shows.function {entry : UnitEntry} {glossary : Glossary} {unit : Package}
    (shows : entry.Shows glossary unit) {index : Nat} {function : Function}
    (listed : entry.functions[index]? = some function) :
    ∃ decl lowered, unit.decls[index]? = some decl ∧ unit.arena.function? decl = some lowered ∧
      lowered.symbol = glossary.symbolId?
        (Symbol.keyOf glossary.unit function.signature.receiver function.signature.name) := by
  obtain ⟨trees, read, rest⟩ := Option.bind_eq_some_iff.mp shows.trees
  obtain ⟨globals, _, same⟩ := Option.bind_eq_some_iff.mp rest
  have trees_eq := congrArg Prod.fst (Option.some.inj same)
  cases trees_eq
  obtain ⟨decl, isDecl, tree⟩ := exists_getElem?_of_forall₂ (mapM_eq_some_iff.mp read).flip
    (show (entry.functions.map _)[index]? = some _ by rw [List.getElem?_map, listed]; rfl)
  obtain ⟨lowered, found, node⟩ := Option.bind_eq_some_iff.mp tree
  refine ⟨decl, lowered, isDecl, found, ?_⟩
  cases function with
  | mk signature inner => exact Reader.symbol_of_functionNode node

section

variable {dump : Dump} {program : Program} {warnings : List Warning}

/-- A declared function has the last symbol of its key. -/
theorem declaredSymbol?_of_declared? (accepted : dump.lower = .ok (program, warnings))
    {unit function : Nat} {path : String} {signature : Signature}
    (declared : dump.declared? unit function = some (path, signature)) :
    program.declaredSymbol? unit function =
      (program.symbols.last? (signature.key path)).map (·.1) := by
  obtain ⟨entry, isUnit, rest⟩ := Option.bind_eq_some_iff.mp declared
  obtain ⟨literal, isFunction, same⟩ := Option.bind_eq_some_iff.mp rest
  cases same
  obtain ⟨package, isPackage, shows⟩ :=
    exists_getElem?_of_forall₂ (shows_of_lower accepted) isUnit
  obtain ⟨decl, lowered, isDecl, found, symbol⟩ := shows.function isFunction
  rw [Array.getElem?_toList] at isPackage
  simp only [Program.declaredSymbol?, isPackage, isDecl, found, Option.bind_eq_bind,
    Option.bind_some]
  exact symbol

theorem symbols_of_lower (accepted : dump.lower = .ok (program, warnings)) :
    program.symbols = (lowerSymbols dump).symbols := by
  rw [← toProgram_of_lower accepted]
  exact (lowerUnits_tables dump.tables dump.units
    { files := (lowerFiles dump.files).1, symbols := (lowerSymbols dump).symbols }
    (lowerSymbols dump).names []).2.1

theorem key_mem_registered {unit function : Nat} {path : String} {signature : Signature}
    (declared : dump.declared? unit function = some (path, signature)) :
    signature.key path ∈ dump.registered.map SymbolEntry.key := by
  obtain ⟨entry, isUnit, rest⟩ := Option.bind_eq_some_iff.mp declared
  obtain ⟨literal, isFunction, same⟩ := Option.bind_eq_some_iff.mp rest
  cases same
  refine (foldl_addFreshUnit_keys _ _ _).mpr (Or.inr ⟨entry, List.mem_of_getElem? isUnit, ?_⟩)
  exact List.mem_map_of_mem (List.mem_map_of_mem (List.mem_of_getElem? isFunction))

/-- The symbol of a declared function is that of an entry with its key. -/
theorem exists_declaredSymbol (accepted : dump.lower = .ok (program, warnings))
    {unit function : Nat} {path : String} {signature : Signature}
    (declared : dump.declared? unit function = some (path, signature)) :
    ∃ id symbol, program.declaredSymbol? unit function = some id ∧
      program.symbols.get? id = some symbol ∧
      ∃ entry ∈ dump.registered, entry.key = signature.key path ∧ symbol.key = entry.key ∧
        symbol.package = entry.package := by
  have holds := holds_lowerSymbols dump
  cases last : lastOf? SymbolEntry.key dump.registered (signature.key path) with
  | none => exact absurd (key_mem_registered declared) (lastOf?_eq_none_iff.mp last)
  | some listed =>
      obtain ⟨index, entry⟩ := listed
      have there := getElem?_of_lastOf? last
      obtain ⟨symbol, found, registers⟩ := exists_getElem?_of_forall₂ holds.symbols there
      refine ⟨⟨index⟩, symbol, ?_, ?_, entry, List.mem_of_getElem? there, key_of_lastOf? last,
        registers.key, registers.package⟩
      · rw [declaredSymbol?_of_declared? accepted declared, symbols_of_lower accepted,
          ← latest_lowerSymbols, holds.ids, last]
        rfl
      · rw [symbols_of_lower accepted, SymbolTable.get?, ← Array.getElem?_toList]
        exact found

/-- Every declared function has a symbol of its key, in the package of its unit unless another
entry has the key; and two of them have one symbol exactly when their keys are equal. -/
theorem declaredSymbol?_eq_iff_key_eq (accepted : dump.lower = .ok (program, warnings)) :
    (∀ (unit function : Nat) (path : String) (signature : Signature),
      dump.declared? unit function = some (path, signature) →
      ∃ id symbol, program.declaredSymbol? unit function = some id ∧
        program.symbols.get? id = some symbol ∧ symbol.key = signature.key path ∧
        ((∀ entry ∈ dump.symbols ++ dump.declaredEntries, entry.key = signature.key path →
          entry.package = path) → symbol.package = path)) ∧
      ∀ (unit function unit' function' : Nat) (path path' : String)
        (signature signature' : Signature),
        dump.declared? unit function = some (path, signature) →
        dump.declared? unit' function' = some (path', signature') →
        (program.declaredSymbol? unit function = program.declaredSymbol? unit' function' ↔
          signature.key path = signature'.key path') := by
  constructor
  · intro unit function path signature declared
    obtain ⟨id, symbol, found, known, entry, member, key, sameKey, package⟩ :=
      exists_declaredSymbol accepted declared
    exact ⟨id, symbol, found, known, sameKey.trans key,
      fun alone => package.trans (alone entry (mem_registered member) key)⟩
  · intro unit function unit' function' path path' signature signature' declared declared'
    constructor
    · intro same
      obtain ⟨id, symbol, found, known, entry, _, key, sameKey, _⟩ :=
        exists_declaredSymbol accepted declared
      obtain ⟨id', symbol', found', known', entry', _, key', sameKey', _⟩ :=
        exists_declaredSymbol accepted declared'
      cases found.symm.trans (same.trans found')
      cases known.symm.trans known'
      rw [← key, ← key', ← sameKey, ← sameKey']
    · intro same
      rw [declaredSymbol?_of_declared? accepted declared,
        declaredSymbol?_of_declared? accepted declared', same]

end

/-! ### A small program -/

/-- A method `Load` of the type `v3` of one package, and a function `Load` of another package whose
path ends with `.v3`. Both have the key `svc/yaml.v3.Load`. -/
def dotted : Dump :=
  { files := []
    types := []
    symbols :=
      [⟨"lib", "Wrap", none, "func lib.Wrap() error", ["error"]⟩,
       ⟨"lib", "New", none, "func lib.New() error", ["error"]⟩]
    units :=
      [{ path := "svc/yaml"
         files := []
         imports := []
         vars := []
         functions :=
           [.mk ⟨"Load", some "v3", none, none, none, [], [⟨"error", none⟩]⟩
              (some [.ret [.call (.func "lib.Wrap" none) [] none none] none])]
         globals := [] },
       { path := "svc/yaml.v3"
         files := []
         imports := []
         vars := []
         functions :=
           [.mk ⟨"Load", none, none, none, none, [], [⟨"error", none⟩]⟩
              (some [.ret [.call (.func "lib.New" none) [] none none] none])]
         globals := [] }] }

namespace dotted

def program : Program := dotted.toProgram.1

theorem accepted : dotted.lower = .ok (program, dotted.toProgram.2) :=
  lower_of_fault? (by decide)

def method : Signature := ⟨"Load", some "v3", none, none, none, [], [⟨"error", none⟩]⟩

def function : Signature := ⟨"Load", none, none, none, none, [], [⟨"error", none⟩]⟩

theorem one_key :
    dotted.lower = .ok (program, dotted.toProgram.2) ∧
      dotted.declared? 0 0 = some ("svc/yaml", method) ∧
      dotted.declared? 1 0 = some ("svc/yaml.v3", function) ∧
      method.key "svc/yaml" = function.key "svc/yaml.v3" ∧
      program.declaredSymbol? 0 0 = program.declaredSymbol? 1 0 := by
  have same : method.key "svc/yaml" = function.key "svc/yaml.v3" := by decide
  exact ⟨accepted, rfl, rfl, same,
    ((declaredSymbol?_eq_iff_key_eq accepted).2 0 0 1 0 _ _ _ _ rfl rfl).mpr same⟩

theorem two_functions_of_one_symbol :
    dotted.lower = .ok (program, dotted.toProgram.2) ∧
      dotted.declared? 0 0 = some ("svc/yaml", method) ∧
      dotted.declared? 1 0 = some ("svc/yaml.v3", function) ∧
      ("svc/yaml", method.receiver, method.name) ≠
        ("svc/yaml.v3", function.receiver, function.name) ∧
      program.declaredSymbol? 0 0 = some ⟨2⟩ ∧ program.declaredSymbol? 1 0 = some ⟨2⟩ ∧
      (program.symbols.get? ⟨2⟩).map (·.package) = some "svc/yaml" := by
  have listed : (lowerSymbols dotted).ids["svc/yaml.v3.Load"]? = some ⟨2⟩ := by cbv
  have last : ((lowerSymbols dotted).symbols.last? "svc/yaml.v3.Load").map (·.1) = some ⟨2⟩ :=
    (latest_lowerSymbols dotted _).symm.trans listed
  refine ⟨accepted, rfl, rfl, by decide, ?_, ?_, ?_⟩
  · rw [declaredSymbol?_of_declared? accepted rfl, symbols_of_lower accepted]
    exact last
  · rw [declaredSymbol?_of_declared? accepted rfl, symbols_of_lower accepted]
    exact last
  · rw [symbols_of_lower accepted]
    cbv

end dotted

end Dump

end ErrorWrapping
