import ErrorWrapping.Facts
import Mathlib.Data.List.Basic

/-
What stores of facts have in common.

A store is seen through its verdicts alone. A lawful store takes a verdict for a symbol that has
none, keeps all others, and refuses a second verdict. Tables and layers are lawful. Merging is a
union in which the table on the left counts first, and a layer never adds a symbol that its base
has.
-/

namespace ErrorWrapping

/-- A store whose verdicts change only by recording, and only where there was none. -/
class LawfulFactStore (σ : Type) [FactStore σ] : Prop where
  record_fresh : ∀ (facts : σ) (symbol : SymbolId) (verdict : Verdict),
    FactStore.verdict? facts symbol = none →
    ∃ after, FactStore.record facts symbol verdict = .ok after ∧
      ∀ other, FactStore.verdict? after other =
        if other = symbol then some verdict else FactStore.verdict? facts other
  record_known : ∀ (facts : σ) (symbol : SymbolId) (verdict : Verdict),
    FactStore.verdict? facts symbol ≠ none →
    ∃ refusal, FactStore.record facts symbol verdict = .error refusal

/-! ### Tables -/

namespace FactTable

@[simp]
theorem verdict?_empty (symbol : SymbolId) : empty.verdict? symbol = none := by
  simp [empty, verdict?]

theorem ext_verdict? {left right : FactTable}
    (same : ∀ symbol, left.verdict? symbol = right.verdict? symbol) : left = right := by
  cases left with
  | mk leftVerdicts =>
      cases right with
      | mk rightVerdicts =>
          congr 1
          apply Std.ExtTreeMap.ext_getElem?
          intro index
          exact same ⟨index⟩

theorem record_of_none {table : FactTable} {symbol : SymbolId} (verdict : Verdict)
    (missing : table.verdict? symbol = none) :
    table.record symbol verdict = .ok ⟨table.verdicts.insert symbol.index verdict⟩ := by
  simp only [record, missing]

theorem record_of_some {table : FactTable} {symbol : SymbolId} {existing : Verdict}
    (verdict : Verdict) (known : table.verdict? symbol = some existing) :
    table.record symbol verdict = .error (.alreadyRecorded symbol existing) := by
  simp only [record, known]

theorem verdict?_insert (table : FactTable) (symbol other : SymbolId) (verdict : Verdict) :
    (FactTable.mk (table.verdicts.insert symbol.index verdict)).verdict? other =
      if other = symbol then some verdict else table.verdict? other := by
  simp only [verdict?, Std.ExtTreeMap.getElem?_insert, Std.LawfulEqCmp.compare_eq_iff_eq]
  by_cases same : other = symbol
  · rw [if_pos same, if_pos (congrArg SymbolId.index same.symm)]
  · have differs : symbol.index ≠ other.index := by
      intro equal
      cases symbol
      cases other
      exact same (congrArg SymbolId.mk equal.symm)
    rw [if_neg same, if_neg differs]

instance : LawfulFactStore FactTable where
  record_fresh table symbol verdict missing :=
    ⟨_, record_of_none verdict missing, fun other => verdict?_insert table symbol other verdict⟩
  record_known table symbol verdict known := by
    obtain ⟨existing, found⟩ := Option.ne_none_iff_exists'.mp known
    exact ⟨_, record_of_some verdict found⟩

theorem mem_entries {table : FactTable} {symbol : SymbolId} {verdict : Verdict} :
    (symbol, verdict) ∈ table.entries ↔ table.verdict? symbol = some verdict := by
  simp only [entries, List.mem_map, Prod.mk.injEq, verdict?]
  constructor
  · rintro ⟨⟨index, found⟩, member, rfl, rfl⟩
    exact Std.ExtTreeMap.mem_toList_iff_getElem?_eq_some.mp member
  · intro found
    exact ⟨(symbol.index, verdict), Std.ExtTreeMap.mem_toList_iff_getElem?_eq_some.mpr found,
      rfl, rfl⟩

/-! ### Merging -/

/-- The first verdict for a symbol in a list of facts. -/
def firstVerdict? (facts : List (SymbolId × Verdict)) (symbol : SymbolId) : Option Verdict :=
  (facts.find? (·.1 = symbol)).map (·.2)

theorem verdict?_absorb (state : FactTable × Option FactError) (fact : SymbolId × Verdict)
    (symbol : SymbolId) :
    (absorb state fact).1.verdict? symbol =
      (state.1.verdict? symbol <|> if fact.1 = symbol then some fact.2 else none) := by
  cases known : state.1.verdict? fact.1 with
  | some existing =>
      simp only [absorb, record_of_some fact.2 known]
      by_cases same : fact.1 = symbol
      · rw [← same, known]
        rfl
      · rw [if_neg same, Option.orElse_eq_orElse, Option.orElse_eq_or, Option.or_none]
  | none =>
      simp only [absorb, record_of_none fact.2 known, verdict?_insert]
      by_cases same : fact.1 = symbol
      · rw [if_pos same.symm, if_pos same, ← same, known]
        rfl
      · rw [if_neg (Ne.symm same), if_neg same, Option.orElse_eq_orElse, Option.orElse_eq_or,
          Option.or_none]

theorem verdict?_foldl_absorb (facts : List (SymbolId × Verdict))
    (state : FactTable × Option FactError) (symbol : SymbolId) :
    (facts.foldl absorb state).1.verdict? symbol =
      (state.1.verdict? symbol <|> firstVerdict? facts symbol) := by
  induction facts generalizing state with
  | nil => simp [firstVerdict?]
  | cons fact rest ih =>
      rw [List.foldl_cons, ih, verdict?_absorb]
      by_cases same : fact.1 = symbol
      · simp [firstVerdict?, same]
      · simp [firstVerdict?, same]

theorem firstVerdict?_entries (table : FactTable) (symbol : SymbolId) :
    firstVerdict? table.entries symbol = table.verdict? symbol := by
  cases found : table.verdict? symbol with
  | none =>
      have absent : table.entries.find? (·.1 = symbol) = none := by
        rw [List.find?_eq_none]
        rintro ⟨other, verdict⟩ member same
        have stored := mem_entries.mp member
        have equal : other = symbol := of_decide_eq_true same
        rw [equal, found] at stored
        cases stored
      simp [firstVerdict?, absent]
  | some verdict =>
      have member := mem_entries.mpr found
      cases first : table.entries.find? (·.1 = symbol) with
      | none =>
          have impossible := List.find?_eq_none.mp first _ member
          simp at impossible
      | some fact =>
          have same : fact.1 = symbol := by simpa using List.find?_some first
          have stored := mem_entries.mp (List.mem_of_find?_eq_some first)
          rw [same, found] at stored
          simp only [firstVerdict?, first, Option.map_some]
          exact stored.symm

/-- Merging is a union in which the first table counts first. -/
theorem verdict?_merge (table other : FactTable) (symbol : SymbolId) :
    (table.merge other).1.verdict? symbol =
      (table.verdict? symbol <|> other.verdict? symbol) := by
  rw [merge, verdict?_foldl_absorb, firstVerdict?_entries]

/-- How a table refuses a fact whose symbol has a verdict. -/
def conflict? (table : FactTable) (fact : SymbolId × Verdict) : Option FactError :=
  (table.verdict? fact.1).map (.alreadyRecorded fact.1)

theorem conflict?_eq_some_iff {table : FactTable} {fact : SymbolId × Verdict}
    {refusal : FactError} : table.conflict? fact = some refusal ↔
      ∃ existing, table.verdict? fact.1 = some existing ∧
        .alreadyRecorded fact.1 existing = refusal :=
  Option.map_eq_some_iff

theorem conflict?_eq_none_iff {table : FactTable} {fact : SymbolId × Verdict} :
    table.conflict? fact = none ↔ table.verdict? fact.1 = none :=
  Option.map_eq_none_iff

theorem conflict_absorb (state : FactTable × Option FactError) (fact : SymbolId × Verdict) :
    (absorb state fact).2 = (state.2 <|> state.1.conflict? fact) := by
  cases known : state.1.verdict? fact.1 with
  | some existing => simp only [absorb, record_of_some fact.2 known, conflict?, known,
      Option.map_some]
  | none =>
      simp only [absorb, record_of_none fact.2 known, conflict?, known, Option.map_none]
      cases state.2 <;> rfl

/-- Among facts on different symbols, the first that the table refuses is kept. -/
theorem foldl_absorb_conflict (facts : List (SymbolId × Verdict))
    (state : FactTable × Option FactError) (distinct : (facts.map (·.1)).Nodup) :
    (facts.foldl absorb state).2 = (state.2 <|> facts.findSome? state.1.conflict?) := by
  induction facts generalizing state with
  | nil =>
      change state.2 = (state.2 <|> none)
      cases state.2 <;> rfl
  | cons fact rest ih =>
      obtain ⟨fresh, distinctRest⟩ := List.nodup_cons.mp distinct
      -- A fact changes nothing for the facts after it, which are on other symbols.
      have same : ∀ later ∈ rest,
          (absorb state fact).1.conflict? later = state.1.conflict? later := by
        intro later member
        have differs : fact.1 ≠ later.1 := fun equal =>
          fresh (List.mem_map.mpr ⟨later, member, equal.symm⟩)
        rw [conflict?, verdict?_absorb, if_neg differs, Option.orElse_eq_orElse,
          Option.orElse_eq_or, Option.or_none]
        rfl
      rw [List.foldl_cons, ih _ distinctRest, conflict_absorb, ← List.head?_filterMap,
        List.filterMap_congr same, List.head?_filterMap, List.findSome?_cons]
      cases state.2 <;> cases state.1.conflict? fact <;> rfl

theorem entries_symbols_nodup (table : FactTable) : (table.entries.map (·.1)).Nodup := by
  have ordered := Std.ExtTreeMap.distinct_keys_toList (t := table.verdicts)
  simp only [entries, List.map_map]
  apply List.Pairwise.map _ _ ordered
  intro left right differs same
  apply differs
  have equal : left.1 = right.1 := congrArg SymbolId.index same
  rw [equal]
  exact Std.ReflCmp.compare_self

/-- Merging reports the first fact of the other table that is refused. -/
theorem merge_conflict (table other : FactTable) :
    (table.merge other).2 = other.entries.findSome? table.conflict? := by
  rw [merge, foldl_absorb_conflict _ _ other.entries_symbols_nodup]
  rfl

/-- Tables that share no symbol merge without conflict. -/
theorem merge_conflict_eq_none {table other : FactTable}
    (apart : ∀ symbol, other.verdict? symbol ≠ none → table.verdict? symbol = none) :
    (table.merge other).2 = none := by
  rw [merge_conflict, List.findSome?_eq_none_iff]
  rintro ⟨symbol, verdict⟩ member
  rw [conflict?_eq_none_iff]
  apply apart
  rw [mem_entries.mp member]
  exact Option.some_ne_none verdict

end FactTable

/-! ### Layers -/

namespace FactLayer

theorem verdict?_eq_or (layer : FactLayer) (symbol : SymbolId) :
    layer.verdict? symbol = (layer.added.verdict? symbol <|> layer.base.verdict? symbol) := rfl

@[simp]
theorem verdict?_ofTable (base : FactTable) (symbol : SymbolId) :
    (ofTable base).verdict? symbol = base.verdict? symbol := by
  simp [verdict?, ofTable]

theorem record_of_base {layer : FactLayer} {symbol : SymbolId} {existing : Verdict}
    (verdict : Verdict) (known : layer.base.verdict? symbol = some existing) :
    layer.record symbol verdict = .error (.alreadyRecorded symbol existing) := by
  simp only [record, known]

theorem record_of_free {layer : FactLayer} {symbol : SymbolId} (verdict : Verdict)
    (missing : layer.base.verdict? symbol = none) :
    layer.record symbol verdict =
      (layer.added.record symbol verdict).map fun added => { layer with added } := by
  simp only [record, missing]

/-- No symbol of the base has been added. -/
def Apart (layer : FactLayer) : Prop :=
  ∀ symbol, layer.added.verdict? symbol ≠ none → layer.base.verdict? symbol = none

theorem apart_ofTable (base : FactTable) : (ofTable base).Apart := by
  intro symbol added
  exact absurd (FactTable.verdict?_empty symbol) added

theorem record_eq_ok {layer after : FactLayer} {symbol : SymbolId} {verdict : Verdict}
    (recorded : layer.record symbol verdict = .ok after) :
    layer.base.verdict? symbol = none ∧ after.base = layer.base ∧
      ∀ other, after.added.verdict? other =
        if other = symbol then some verdict else layer.added.verdict? other := by
  cases inBase : layer.base.verdict? symbol with
  | some existing =>
      rw [record_of_base verdict inBase] at recorded
      cases recorded
  | none =>
      rw [record_of_free verdict inBase] at recorded
      cases inAdded : layer.added.verdict? symbol with
      | some existing =>
          rw [FactTable.record_of_some verdict inAdded] at recorded
          cases recorded
      | none =>
          rw [FactTable.record_of_none verdict inAdded] at recorded
          cases recorded
          exact ⟨rfl, rfl, fun other => FactTable.verdict?_insert layer.added symbol other verdict⟩

theorem Apart.record {layer after : FactLayer} {symbol : SymbolId} {verdict : Verdict}
    (apart : layer.Apart) (recorded : layer.record symbol verdict = .ok after) : after.Apart := by
  obtain ⟨free, sameBase, added⟩ := record_eq_ok recorded
  intro other present
  rw [sameBase]
  by_cases same : other = symbol
  · rw [same]
    exact free
  · rw [added, if_neg same] at present
    exact apart other present

instance : LawfulFactStore FactLayer where
  record_fresh layer symbol verdict missing := by
    have parts : layer.added.verdict? symbol = none ∧ layer.base.verdict? symbol = none := by
      simpa [FactStore.verdict?, verdict?] using missing
    refine ⟨{ layer with added := ⟨layer.added.verdicts.insert symbol.index verdict⟩ }, ?_, ?_⟩
    · change layer.record symbol verdict = _
      rw [record_of_free verdict parts.2, FactTable.record_of_none verdict parts.1]
      rfl
    · intro other
      change ((FactTable.mk _).verdict? other <|> layer.base.verdict? other) =
        if other = symbol then some verdict
        else (layer.added.verdict? other <|> layer.base.verdict? other)
      rw [FactTable.verdict?_insert]
      by_cases same : other = symbol
      · rw [if_pos same, if_pos same]
        rfl
      · rw [if_neg same, if_neg same]
  record_known layer symbol verdict known := by
    change ∃ refusal, layer.record symbol verdict = .error refusal
    cases inBase : layer.base.verdict? symbol with
    | some existing => exact ⟨_, record_of_base verdict inBase⟩
    | none =>
        cases inAdded : layer.added.verdict? symbol with
        | none =>
            have missing : layer.verdict? symbol = none := by simp [verdict?, inBase, inAdded]
            exact absurd missing known
        | some existing =>
            refine ⟨.alreadyRecorded symbol existing, ?_⟩
            rw [record_of_free verdict inBase, FactTable.record_of_some verdict inAdded]
            rfl

end FactLayer

end ErrorWrapping
