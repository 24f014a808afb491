import ErrorWrapping.Proofs.RenamedUnits
import Mathlib.Data.List.Induction
import Mathlib.Data.List.Nodup
import Mathlib.Logic.Equiv.Basic

/-
Symbols of units in another order.

When no two units declare functions of one key, the symbols that a unit adds to the table are the
same wherever it stands. Taking the units in another order then only moves symbols about: there is
a permutation of their numbers under which each key stands for the same symbol as before.
-/

namespace ErrorWrapping

/-! ### Lists with a common beginning -/

section

variable {α : Type} {key : α → String} {start entries others : List α} {text : String}

theorem lastOf?_append (start entries : List α) :
    lastOf? key (start ++ entries) text =
      ((lastOf? key entries text).map fun found => (start.length + found.1, found.2)).or
        (lastOf? key start text) := by
  induction entries using List.reverseRecOn with
  | nil => simp [lastOf?_nil]
  | append_singleton entries entry ih =>
      rw [← List.append_assoc, lastOf?_append_singleton, lastOf?_append_singleton, ih]
      split <;> simp

theorem lastOf?_of_nodup (once : (entries.map key).Nodup) {index : Nat} {entry : α}
    (found : entries[index]? = some entry) :
    lastOf? key entries (key entry) = some (index, entry) := by
  refine lastOf?_of_unique found fun other rival there same => ?_
  have inside : other < (entries.map key).length := by
    rw [List.length_map]
    exact (List.getElem?_eq_some_iff.mp there).1
  refine (List.getElem?_inj inside once).mp ?_
  rw [List.getElem?_map, List.getElem?_map, there, found, Option.map_some, Option.map_some, same]

/-- What follows a common beginning is in another order, and each of its keys is new. -/
structure Rearranged (key : α → String) (start entries others : List α) : Prop where
  perm : entries.Perm others
  once : (entries.map key).Nodup
  fresh : ∀ entry ∈ entries, key entry ∉ start.map key

/-- The place of an entry in the other list. -/
def renumber (key : α → String) (start entries others : List α) (index : Nat) : Nat :=
  if index < start.length then index
  else
    (((start ++ entries)[index]?).bind fun entry =>
      (lastOf? key (start ++ others) (key entry)).map (·.1)).getD index

theorem Rearranged.symm (moved : Rearranged key start entries others) :
    Rearranged key start others entries where
  perm := moved.perm.symm
  once := (moved.perm.map key).nodup_iff.mp moved.once
  fresh entry member := moved.fresh entry (moved.perm.mem_iff.mpr member)

theorem Rearranged.lastOf? (moved : Rearranged key start entries others) {index : Nat} {entry : α}
    (found : entries[index]? = some entry) :
    ∃ place, others[place]? = some entry ∧
      lastOf? key (start ++ others) (key entry) = some (start.length + place, entry) := by
  obtain ⟨place, there⟩ :=
    List.getElem?_of_mem (moved.perm.mem_iff.mp (List.mem_of_getElem? found))
  refine ⟨place, there, ?_⟩
  rw [lastOf?_append, lastOf?_of_nodup moved.symm.once there]
  rfl

theorem renumber_of_lt {index : Nat} (early : index < start.length) :
    renumber key start entries others index = index := if_pos early

theorem Rearranged.renumber_of_some (moved : Rearranged key start entries others) {index : Nat}
    {entry : α} (found : entries[index]? = some entry) :
    ∃ place, others[place]? = some entry ∧
      renumber key start entries others (start.length + index) = start.length + place := by
  obtain ⟨place, there, last⟩ := moved.lastOf? found
  refine ⟨place, there, ?_⟩
  have here : (start ++ entries)[start.length + index]? = some entry := by
    rw [List.getElem?_append_right (Nat.le_add_right ..), Nat.add_sub_cancel_left, found]
  rw [renumber, if_neg (Nat.not_lt_of_le (Nat.le_add_right ..)), here, Option.bind_some, last]
  rfl

theorem renumber_of_none {index : Nat} (beyond : entries[index]? = none) :
    renumber key start entries others (start.length + index) = start.length + index := by
  have here : (start ++ entries)[start.length + index]? = none := by
    rw [List.getElem?_append_right (Nat.le_add_right ..), Nat.add_sub_cancel_left, beyond]
  rw [renumber, if_neg (Nat.not_lt_of_le (Nat.le_add_right ..)), here]
  rfl

/-- Under its other number each entry is the same. -/
theorem Rearranged.getElem?_renumber (moved : Rearranged key start entries others) (index : Nat) :
    (start ++ others)[renumber key start entries others index]? = (start ++ entries)[index]? := by
  rcases Nat.lt_or_ge index start.length with early | late
  · rw [renumber_of_lt early, List.getElem?_append_left early, List.getElem?_append_left early]
  · obtain ⟨rest, rfl⟩ := Nat.exists_eq_add_of_le late
    rw [List.getElem?_append_right late, Nat.add_sub_cancel_left]
    cases found : entries[rest]? with
    | none =>
        have beyond : others[rest]? = none := by
          rw [List.getElem?_eq_none_iff] at found ⊢
          exact moved.perm.length_eq ▸ found
        rw [renumber_of_none found, List.getElem?_append_right late, Nat.add_sub_cancel_left,
          beyond]
    | some entry =>
        obtain ⟨place, there, number⟩ := moved.renumber_of_some found
        rw [number, List.getElem?_append_right (Nat.le_add_right ..), Nat.add_sub_cancel_left,
          there]

theorem Rearranged.renumber_renumber (moved : Rearranged key start entries others) (index : Nat) :
    renumber key start others entries (renumber key start entries others index) = index := by
  rcases Nat.lt_or_ge index start.length with early | late
  · rw [renumber_of_lt early, renumber_of_lt early]
  · obtain ⟨rest, rfl⟩ := Nat.exists_eq_add_of_le late
    cases found : entries[rest]? with
    | none =>
        have beyond : others[rest]? = none := by
          rw [List.getElem?_eq_none_iff] at found ⊢
          exact moved.perm.length_eq ▸ found
        rw [renumber_of_none found, renumber_of_none beyond]
    | some entry =>
        obtain ⟨place, there, number⟩ := moved.renumber_of_some found
        obtain ⟨again, here, back⟩ := moved.symm.renumber_of_some there
        rw [number, back]
        have one := lastOf?_of_nodup moved.once found
        have two := lastOf?_of_nodup moved.once here
        cases one.symm.trans two
        rfl

/-- Each key stands for the same entry, under its other number. -/
theorem Rearranged.lastOf?_renumber (moved : Rearranged key start entries others) (text : String) :
    (ErrorWrapping.lastOf? key (start ++ others) text).map (·.1) =
      ((ErrorWrapping.lastOf? key (start ++ entries) text).map (·.1)).map
        (renumber key start entries others) := by
  cases found : ErrorWrapping.lastOf? key entries text with
  | some listed =>
      obtain ⟨index, entry⟩ := listed
      have here := getElem?_of_lastOf? found
      obtain ⟨place, there, number⟩ := moved.renumber_of_some here
      obtain ⟨place', there', last⟩ := moved.lastOf? here
      rw [key_of_lastOf? found] at last
      have one := lastOf?_of_nodup moved.symm.once there
      have two := lastOf?_of_nodup moved.symm.once there'
      cases one.symm.trans two
      rw [last, lastOf?_append, found]
      exact congrArg some number.symm
  | none =>
      have absent : ErrorWrapping.lastOf? key others text = none := by
        rw [lastOf?_eq_none_iff] at found ⊢
        rwa [(moved.perm.map key).mem_iff] at found
      rw [lastOf?_append, lastOf?_append, found, absent]
      cases early : ErrorWrapping.lastOf? key start text with
      | none => rfl
      | some listed =>
          have inside := (List.getElem?_eq_some_iff.mp (getElem?_of_lastOf? early)).1
          exact congrArg some (renumber_of_lt inside).symm

end

namespace Dump

/-! ### What a unit adds to the symbol table -/

/-- The entries for functions whose keys are neither known nor met before. -/
def freshOf (path : String) (known : List String) : List Signature → List SymbolEntry
  | [] => []
  | function :: rest =>
    if function.key path ∈ known then freshOf path known rest
    else function.symbolEntry path :: freshOf path (known ++ [function.key path]) rest

def UnitEntry.fresh (known : List String) (unit : UnitEntry) : List SymbolEntry :=
  freshOf unit.path known unit.signatures

/-- No two units declare functions of one key. -/
def KeysApart (units : List UnitEntry) : Prop :=
  units.Pairwise fun unit other => ∀ function ∈ unit.signatures, ∀ rival ∈ other.signatures,
    function.key unit.path ≠ rival.key other.path

theorem foldl_addFresh (path : String) (functions : List Signature) (entries : List SymbolEntry) :
    functions.foldl (addFresh path) entries =
      entries ++ freshOf path (entries.map SymbolEntry.key) functions := by
  induction functions generalizing entries with
  | nil => exact (List.append_nil entries).symm
  | cons function rest ih =>
      rw [List.foldl_cons, ih, addFresh, freshOf]
      split
      · rfl
      · rw [List.map_append, List.append_assoc]
        rfl

theorem freshOf_congr (path : String) {functions : List Signature} {known others : List String}
    (same : ∀ function ∈ functions, function.key path ∈ known ↔ function.key path ∈ others) :
    freshOf path known functions = freshOf path others functions := by
  induction functions generalizing known others with
  | nil => rfl
  | cons function rest ih =>
      obtain ⟨here, later⟩ := List.forall_mem_cons.mp same
      have after : freshOf path (known ++ [function.key path]) rest =
          freshOf path (others ++ [function.key path]) rest := by
        refine ih fun other member => ?_
        rw [List.mem_append, List.mem_append, later other member]
      rw [freshOf, freshOf, ih later, after]
      simp only [here]

theorem key_of_mem_freshOf {path : String} {functions : List Signature} {known : List String}
    {entry : SymbolEntry} (member : entry ∈ freshOf path known functions) :
    entry.key ∉ known ∧ ∃ function ∈ functions, entry.key = function.key path := by
  induction functions generalizing known with
  | nil => cases member
  | cons function rest ih =>
      rw [freshOf] at member
      split at member
      · obtain ⟨fresh, declared, isRest, same⟩ := ih member
        exact ⟨fresh, declared, List.mem_cons_of_mem _ isRest, same⟩
      · rename_i unknown
        rcases List.mem_cons.mp member with rfl | later
        · exact ⟨unknown, function, List.mem_cons_self .., rfl⟩
        · obtain ⟨fresh, declared, isRest, same⟩ := ih later
          exact ⟨fun inKnown => fresh (List.mem_append_left _ inKnown), declared,
            List.mem_cons_of_mem _ isRest, same⟩

theorem nodup_freshOf (path : String) (functions : List Signature) (known : List String) :
    ((freshOf path known functions).map SymbolEntry.key).Nodup := by
  induction functions generalizing known with
  | nil => exact List.nodup_nil
  | cons function rest ih =>
      rw [freshOf]
      split
      · exact ih known
      · refine List.nodup_cons.mpr ⟨fun again => ?_, ih _⟩
        obtain ⟨entry, member, same⟩ := List.mem_map.mp again
        refine (key_of_mem_freshOf member).1 (List.mem_append_right _ ?_)
        rw [same]
        exact List.mem_singleton.mpr rfl

/-- Wherever units stand, each adds what it would add on its own. -/
theorem foldl_addFreshUnit {units : List UnitEntry} (apart : KeysApart units)
    {known entries : List SymbolEntry}
    (same : ∀ unit ∈ units, ∀ function ∈ unit.signatures,
      function.key unit.path ∈ entries.map SymbolEntry.key ↔
        function.key unit.path ∈ known.map SymbolEntry.key) :
    units.foldl addFreshUnit entries =
      entries ++ units.flatMap (UnitEntry.fresh (known.map SymbolEntry.key)) := by
  induction units generalizing entries with
  | nil => exact (List.append_nil entries).symm
  | cons unit rest ih =>
      obtain ⟨here, later⟩ := List.pairwise_cons.mp apart
      obtain ⟨first, others⟩ := List.forall_mem_cons.mp same
      have added : addFreshUnit entries unit =
          entries ++ unit.fresh (known.map SymbolEntry.key) := by
        rw [addFreshUnit, foldl_addFresh, freshOf_congr unit.path first]
        rfl
      rw [List.foldl_cons, added, List.flatMap_cons, ← List.append_assoc]
      refine ih later fun other isRest function declared => ?_
      rw [List.map_append, List.mem_append, others other isRest function declared, or_iff_left]
      intro again
      obtain ⟨entry, member, sameKey⟩ := List.mem_map.mp again
      obtain ⟨_, rival, isDeclared, rivalKey⟩ := key_of_mem_freshOf member
      exact here other isRest rival isDeclared function declared (rivalKey.symm.trans sameKey)

theorem registered_eq {dump : Dump} (apart : KeysApart dump.units) :
    dump.registered = dump.symbols ++
      dump.units.flatMap (UnitEntry.fresh (dump.symbols.map SymbolEntry.key)) :=
  foldl_addFreshUnit apart fun _ _ _ _ => Iff.rfl

theorem nodup_fresh {units : List UnitEntry} (apart : KeysApart units) (known : List String) :
    ((units.flatMap (UnitEntry.fresh known)).map SymbolEntry.key).Nodup := by
  rw [List.map_flatMap, List.nodup_flatMap]
  refine ⟨fun unit _ => nodup_freshOf _ _ _, apart.imp fun {unit other} differ => ?_⟩
  rintro key inUnit inOther
  obtain ⟨entry, member, rfl⟩ := List.mem_map.mp inUnit
  obtain ⟨rival, isRival, same⟩ := List.mem_map.mp inOther
  obtain ⟨_, function, declared, key⟩ := key_of_mem_freshOf member
  obtain ⟨_, function', declared', key'⟩ := key_of_mem_freshOf isRival
  exact differ function declared function' declared' (key.symm.trans (same.symm.trans key'))

theorem KeysApart.perm {units others : List UnitEntry} (apart : KeysApart units)
    (perm : units.Perm others) : KeysApart others := by
  refine (perm.pairwise_iff ?_).mp apart
  intro unit other differ function declared rival isRival same
  exact differ rival isRival function declared same.symm

theorem rearranged_fresh {units others : List UnitEntry} (apart : KeysApart units)
    (perm : units.Perm others) (symbols : List SymbolEntry) :
    Rearranged SymbolEntry.key symbols
      (units.flatMap (UnitEntry.fresh (symbols.map SymbolEntry.key)))
      (others.flatMap (UnitEntry.fresh (symbols.map SymbolEntry.key))) where
  perm := perm.flatMap_right _
  once := nodup_fresh apart _
  fresh entry member := by
    obtain ⟨unit, _, added⟩ := List.mem_flatMap.mp member
    exact (key_of_mem_freshOf added).1

/-! ### Renaming -/

theorem agreeAll_of_spells {decls : List TypeDecl} {left right : TypeTable}
    {spellings : List String} {ids others : List TypeId}
    (first : List.Forall₂ (fun spelling id => Spells decls left (Text.trim spelling) id) spellings
      ids)
    (second : List.Forall₂ (fun spelling id => Spells decls right (Text.trim spelling) id) spellings
      others) : left.AgreeAll right ids others := by
  refine ⟨spellings.map (spelledTraits decls), ?_, ?_⟩
  · rw [List.forall₂_map_right_iff]
    exact first.flip.imp fun _ _ spells => spells.answers
  · rw [List.forall₂_map_right_iff]
    exact second.flip.imp fun _ _ spells => spells.answers

theorem SymbolEntry.Registers.renames {entry : SymbolEntry} {decls : List TypeDecl}
    {left right : TypeTable} {symbol other : Symbol} (first : entry.Registers decls left symbol)
    (second : entry.Registers decls right other) : symbol.Renames left right other where
  package := second.package.trans first.package.symm
  name := second.name.trans first.name.symm
  receiver := second.receiver.trans first.receiver.symm
  signature := second.signature.trans first.signature.symm
  results := agreeAll_of_spells first.results second.results

theorem rel_of_rels {α β γ : Type} {R : α → β → Prop} {S : α → γ → Prop} {T : β → γ → Prop}
    {x : Option α} {y : Option β} {z : Option γ} (first : Option.Rel R x y)
    (second : Option.Rel S x z) (both : ∀ x y z, R x y → S x z → T y z) : Option.Rel T y z := by
  cases first with
  | none =>
      cases second with
      | none => exact .none
  | some here =>
      cases second with
      | some there => exact .some (both _ _ _ here there)

/-- Tables whose entries are the same under other numbers. -/
theorem SymbolNames.Holds.renames {decls : List TypeDecl} {state other : SymbolNames}
    {entries others : List SymbolEntry} (holds : state.Holds decls entries)
    (otherHolds : other.Holds decls others) {number : Nat → Nat}
    (same : ∀ index, others[number index]? = entries[index]?) :
    state.symbols.Renames (fun id => ⟨number id.index⟩) state.names.types other.names.types
      other.symbols := by
  intro id
  have first := rel_of_forall₂ holds.symbols id.index
  have second := rel_of_forall₂ otherHolds.symbols (number id.index)
  rw [same id.index] at second
  rw [SymbolTable.get?, SymbolTable.get?, ← Array.getElem?_toList, ← Array.getElem?_toList]
  exact rel_of_rels first second fun _ _ _ here there => here.renames there

/-- Units in another order give the same symbols, under other numbers. -/
theorem exists_renaming {dump : Dump} {units : List UnitEntry} (apart : KeysApart dump.units)
    (perm : dump.units.Perm units) :
    ∃ rename : Equiv.Perm SymbolId,
      (∀ key : String, (lowerSymbols { dump with units }).ids[key]? =
        ((lowerSymbols dump).ids[key]?).map rename) ∧
      (lowerSymbols dump).symbols.Renames rename (lowerSymbols dump).names.types
        (lowerSymbols { dump with units }).names.types
        (lowerSymbols { dump with units }).symbols := by
  have moved := rearranged_fresh apart perm dump.symbols
  have here := registered_eq apart
  have there : registered { dump with units } = dump.symbols ++
      units.flatMap (UnitEntry.fresh (dump.symbols.map SymbolEntry.key)) :=
    @registered_eq { dump with units } (apart.perm perm)
  have holds := holds_lowerSymbols dump
  have otherHolds := holds_lowerSymbols { dump with units }
  rw [here] at holds
  rw [there] at otherHolds
  refine ⟨⟨fun id => ⟨renumber SymbolEntry.key _ _ _ id.index⟩,
    fun id => ⟨renumber SymbolEntry.key _ _ _ id.index⟩,
    fun id => congrArg SymbolId.mk (moved.renumber_renumber id.index),
    fun id => congrArg SymbolId.mk (moved.symm.renumber_renumber id.index)⟩, fun key => ?_, ?_⟩
  · have numbers := moved.lastOf?_renumber key
    have mapped := congrArg (Option.map SymbolId.mk) numbers
    rw [otherHolds.ids, holds.ids]
    simp only [Option.map_map] at mapped ⊢
    exact mapped
  · exact holds.renames otherHolds moved.getElem?_renumber

end Dump

end ErrorWrapping
