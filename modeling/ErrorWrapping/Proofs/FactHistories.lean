import ErrorWrapping.Proofs.Stores
import Mathlib.Data.List.Perm.Basic

/-
Histories of fact tables.

Merging keeps all that a table has, adds what it has not, and reports the first symbol that both
have. In a history of facts recorded and tables merged, refused or not, the first verdict on a
symbol counts and is final. So tables that share no symbol give the same table in whatever order
they are merged.
-/

namespace ErrorWrapping

namespace FactTable

variable {table other : FactTable} {symbol : SymbolId} {verdict : Verdict}

/-! ### One merge -/

/-- Both tables have a verdict on the symbol. -/
def Shares (table other : FactTable) (symbol : SymbolId) : Prop :=
  table.verdict? symbol ≠ none ∧ other.verdict? symbol ≠ none

theorem pairwise_entries (table : FactTable) :
    table.entries.Pairwise fun left right => left.1.index < right.1.index := by
  rw [entries, List.pairwise_map]
  exact Std.ExtTreeMap.ordered_keys_toList.imp Nat.compare_eq_lt.mp

theorem conflict?_ne_none_iff {fact : SymbolId × Verdict} (member : fact ∈ other.entries) :
    table.conflict? fact ≠ none ↔ table.Shares other fact.1 := by
  have stored : other.verdict? fact.1 ≠ none := by
    rw [mem_entries.mp member]
    exact Option.some_ne_none _
  rw [ne_eq, conflict?_eq_none_iff]
  exact ⟨fun known => ⟨known, stored⟩, fun shares => shares.1⟩

theorem exists_fact_of_shares (shares : table.Shares other symbol) :
    ∃ verdict, (symbol, verdict) ∈ other.entries := by
  obtain ⟨verdict, stored⟩ := Option.ne_none_iff_exists'.mp shares.2
  exact ⟨verdict, mem_entries.mpr stored⟩

theorem merge_conflict_eq_none_iff :
    (table.merge other).2 = none ↔ ∀ symbol, ¬ table.Shares other symbol := by
  rw [merge_conflict, List.findSome?_eq_none_iff]
  constructor
  · intro accepted symbol shares
    obtain ⟨verdict, member⟩ := exists_fact_of_shares shares
    exact (conflict?_ne_none_iff member).mpr shares (accepted _ member)
  · intro apart fact member
    by_contra refused
    exact apart fact.1 ((conflict?_ne_none_iff member).mp refused)

/-- The least symbol that both tables have. -/
structure LeastShared (table other : FactTable) (symbol : SymbolId) : Prop where
  shares : table.Shares other symbol
  least : ∀ also, table.Shares other also → symbol.index ≤ also.index

theorem LeastShared.unique {also : SymbolId} (first : table.LeastShared other symbol)
    (second : table.LeastShared other also) : symbol = also :=
  congrArg SymbolId.mk
    (Nat.le_antisymm (first.least _ second.shares) (second.least _ first.shares))

theorem leastShared_of_conflict {refusal : FactError}
    (refused : (table.merge other).2 = some refusal) :
    ∃ symbol existing, refusal = .alreadyRecorded symbol existing ∧
      table.verdict? symbol = some existing ∧ table.LeastShared other symbol := by
  rw [merge_conflict, List.findSome?_eq_some_iff] at refused
  obtain ⟨earlier, fact, later, split, refuses, accepted⟩ := refused
  have ordered := other.pairwise_entries
  rw [split, List.pairwise_append, List.pairwise_cons] at ordered
  have member : fact ∈ other.entries := split ▸ List.mem_append_right _ (List.mem_cons_self ..)
  have shares : table.Shares other fact.1 :=
    (conflict?_ne_none_iff member).mp (by rw [refuses]; exact Option.some_ne_none _)
  obtain ⟨existing, known, rfl⟩ := conflict?_eq_some_iff.mp refuses
  refine ⟨fact.1, existing, rfl, known, shares, fun also alsoShares => ?_⟩
  obtain ⟨verdict, stored⟩ := exists_fact_of_shares alsoShares
  have refusesToo := (conflict?_ne_none_iff stored).mpr alsoShares
  rw [split] at stored
  rcases List.mem_append.mp stored with before | rest
  · exact absurd (accepted _ before) refusesToo
  · rcases List.mem_cons.mp rest with same | after
    · exact Nat.le_of_eq (congrArg (fun fact => fact.1.index) same.symm)
    · exact Nat.le_of_lt (ordered.2.1.1 _ after)

theorem merge_conflict_eq_some_iff {existing : Verdict} :
    (table.merge other).2 = some (.alreadyRecorded symbol existing) ↔
      table.verdict? symbol = some existing ∧ table.LeastShared other symbol := by
  constructor
  · intro refused
    obtain ⟨least, known, same, found, isLeast⟩ := leastShared_of_conflict refused
    cases same
    exact ⟨found, isLeast⟩
  · rintro ⟨found, isLeast⟩
    cases outcome : (table.merge other).2 with
    | none => exact absurd isLeast.shares (merge_conflict_eq_none_iff.mp outcome symbol)
    | some refusal =>
        obtain ⟨also, known, rfl, foundToo, alsoLeast⟩ := leastShared_of_conflict outcome
        cases isLeast.unique alsoLeast
        cases found.symm.trans foundToo
        rfl

/-- What is promised of the outcome of a merge. -/
structure Merges (table other : FactTable) (outcome : FactTable × Option FactError) : Prop where
  keeps : ∀ symbol verdict, table.verdict? symbol = some verdict →
    outcome.1.verdict? symbol = some verdict
  adds : ∀ symbol, table.verdict? symbol = none →
    outcome.1.verdict? symbol = other.verdict? symbol
  accepted : outcome.2 = none ↔ ∀ symbol, ¬ table.Shares other symbol
  refused : ∀ symbol existing, outcome.2 = some (.alreadyRecorded symbol existing) ↔
    table.verdict? symbol = some existing ∧ table.LeastShared other symbol

theorem merges_merge (table other : FactTable) : table.Merges other (table.merge other) where
  keeps symbol verdict known := by
    rw [verdict?_merge, known]
    rfl
  adds symbol missing := by
    rw [verdict?_merge, missing]
    rfl
  accepted := merge_conflict_eq_none_iff
  refused _ _ := merge_conflict_eq_some_iff

end FactTable

/-! ### Histories -/

/-- What is done to a fact table. -/
inductive FactOperation where
  | record (symbol : SymbolId) (verdict : Verdict)
  | merge (other : FactTable)

/-- The verdict that an operation brings for a symbol. -/
def FactOperation.verdict? : FactOperation → SymbolId → Option Verdict
  | .record symbol verdict, other => if symbol = other then some verdict else none
  | .merge table, other => table.verdict? other

namespace FactTable

variable {symbol : SymbolId} {verdict : Verdict}

/-- The table after an operation, whether or not the operation was refused. -/
def apply (table : FactTable) : FactOperation → FactTable
  | .record symbol verdict =>
    match table.record symbol verdict with
    | .ok after => after
    | .error _ => table
  | .merge other => (table.merge other).1

/-- An operation brings verdicts where there were none, and changes no other. -/
theorem verdict?_apply (table : FactTable) (operation : FactOperation) (symbol : SymbolId) :
    (table.apply operation).verdict? symbol =
      (table.verdict? symbol <|> operation.verdict? symbol) := by
  cases operation with
  | merge other => exact verdict?_merge table other symbol
  | record named verdict =>
      refine Eq.trans ?_ (verdict?_absorb (table, none) (named, verdict) symbol)
      cases recorded : table.record named verdict with
      | ok after => simp only [apply, absorb, recorded]
      | error refusal => simp only [apply, absorb, recorded]

/-- After a history the first verdict on a symbol counts. -/
theorem verdict?_foldl_apply (operations : List FactOperation) (table : FactTable)
    (symbol : SymbolId) : (operations.foldl apply table).verdict? symbol =
      (table.verdict? symbol <|> operations.findSome? (·.verdict? symbol)) := by
  induction operations generalizing table with
  | nil =>
      change table.verdict? symbol = (table.verdict? symbol <|> none)
      cases table.verdict? symbol <;> rfl
  | cons operation rest ih =>
      rw [List.foldl_cons, ih, verdict?_apply, List.findSome?_cons]
      cases table.verdict? symbol <;> cases operation.verdict? symbol <;> rfl

theorem verdict?_foldl_apply_of_some {table : FactTable} (operations : List FactOperation)
    (known : table.verdict? symbol = some verdict) :
    (operations.foldl apply table).verdict? symbol = some verdict := by
  rw [verdict?_foldl_apply, known]
  rfl

/-! ### Merging in any order -/

def Apart (table other : FactTable) : Prop :=
  ∀ symbol, ¬ table.Shares other symbol

theorem Apart.symm {table other : FactTable} (apart : table.Apart other) : other.Apart table :=
  fun symbol shares => apart symbol ⟨shares.2, shares.1⟩

/-- Merges tables into the first one, one after the other. -/
def mergeAll (table : FactTable) (others : List FactTable) : FactTable :=
  others.foldl (fun table other => (table.merge other).1) table

theorem verdict?_mergeAll (table : FactTable) (others : List FactTable) (symbol : SymbolId) :
    (table.mergeAll others).verdict? symbol =
      (table :: others).findSome? (·.verdict? symbol) := by
  have history : table.mergeAll others = (others.map FactOperation.merge).foldl apply table := by
    rw [List.foldl_map]
    rfl
  rw [history, verdict?_foldl_apply, List.findSome?_map, List.findSome?_cons]
  cases table.verdict? symbol <;> rfl

/-- Of tables that share no symbol, each brings all of its verdicts. -/
theorem findSome?_verdict?_iff {tables : List FactTable} (apart : tables.Pairwise Apart) :
    tables.findSome? (·.verdict? symbol) = some verdict ↔
      ∃ table ∈ tables, table.verdict? symbol = some verdict := by
  constructor
  · exact List.exists_of_findSome?_eq_some
  · rintro ⟨table, member, found⟩
    obtain ⟨earlier, later, rfl⟩ := List.append_of_mem member
    refine List.findSome?_eq_some_iff.mpr ⟨earlier, table, later, rfl, found, fun other before => ?_⟩
    by_contra known
    have separate : other.Apart table :=
      (List.pairwise_append.mp apart).2.2 other before table (List.mem_cons_self ..)
    exact separate symbol ⟨known, by rw [found]; exact Option.some_ne_none _⟩

theorem mergeAll_of_perm {first other : FactTable} {rest others : List FactTable}
    (same : (first :: rest).Perm (other :: others)) (apart : (first :: rest).Pairwise Apart) :
    first.mergeAll rest = other.mergeAll others := by
  refine ext_verdict? fun symbol => Option.ext fun verdict => ?_
  have apartToo : (other :: others).Pairwise Apart :=
    (same.pairwise_iff fun apart => apart.symm).mp apart
  rw [verdict?_mergeAll, verdict?_mergeAll, findSome?_verdict?_iff apart,
    findSome?_verdict?_iff apartToo]
  exact exists_congr fun table => and_congr_left fun _ => same.mem_iff

theorem mergeAll_accepts {first table : FactTable} {earlier later : List FactTable}
    (apart : (first :: (earlier ++ table :: later)).Pairwise Apart) :
    ((first.mergeAll earlier).merge table).2 = none := by
  rw [merge_conflict_eq_none_iff]
  rintro symbol ⟨known, stored⟩
  rw [verdict?_mergeAll] at known
  obtain ⟨verdict, found⟩ := Option.ne_none_iff_exists'.mp known
  obtain ⟨other, member, has⟩ := List.exists_of_findSome?_eq_some found
  have separate : other.Apart table := by
    rw [← List.cons_append] at apart
    exact (List.pairwise_append.mp apart).2.2 other member table (List.mem_cons_self ..)
  exact separate symbol ⟨by rw [has]; exact Option.some_ne_none _, stored⟩

end FactTable

/-- Merging is a union in which the table that is merged into counts first. It reports the least
symbol that both tables have, and nothing else. Through any history of facts recorded and tables
merged the first verdict on a symbol counts, so a verdict that is there is final; and tables that
share no symbol give one table in any order, without a conflict on the way. -/
theorem FactTable.merge_leftBiased :
    (∀ table other : FactTable, table.Merges other (table.merge other)) ∧
      (∀ (operations : List FactOperation) (table : FactTable) (symbol : SymbolId),
        (operations.foldl FactTable.apply table).verdict? symbol =
            (table.verdict? symbol <|> operations.findSome? (·.verdict? symbol)) ∧
          ∀ verdict, table.verdict? symbol = some verdict →
            (operations.foldl FactTable.apply table).verdict? symbol = some verdict) ∧
      ∀ (first : FactTable) (rest : List FactTable), (first :: rest).Pairwise FactTable.Apart →
        (∀ earlier table later, rest = earlier ++ table :: later →
          ((first.mergeAll earlier).merge table).2 = none) ∧
        ∀ other others, (first :: rest).Perm (other :: others) →
          first.mergeAll rest = other.mergeAll others := by
  refine ⟨FactTable.merges_merge,
    fun operations table symbol => ⟨FactTable.verdict?_foldl_apply operations table symbol, ?_⟩,
    fun first rest apart => ⟨fun earlier table later split => ?_, fun other others same => ?_⟩⟩
  · exact fun verdict known => FactTable.verdict?_foldl_apply_of_some operations known
  · rw [split] at apart
    exact FactTable.mergeAll_accepts apart
  · exact FactTable.mergeAll_of_perm same apart

namespace FactTable.twoConflicts

def ofFacts (facts : List (SymbolId × Verdict)) : FactTable :=
  (facts.map fun fact => FactOperation.record fact.1 fact.2).foldl apply .empty

def table : FactTable := ofFacts [(⟨7⟩, .naked), (⟨3⟩, .wrapped)]

/-- Both symbols of the table with other verdicts, and one more. -/
def other : FactTable := ofFacts [(⟨7⟩, .wrapped), (⟨4⟩, .wrapped), (⟨3⟩, .naked)]

def apart : List FactTable := [ofFacts [(⟨1⟩, .naked)], ofFacts [(⟨5⟩, .naked), (⟨2⟩, .wrapped)]]

theorem pairwise_apart : (table :: apart).Pairwise Apart := by
  have first : table.Apart (ofFacts [(⟨1⟩, .naked)]) :=
    merge_conflict_eq_none_iff.mp (by decide)
  have second : table.Apart (ofFacts [(⟨5⟩, .naked), (⟨2⟩, .wrapped)]) :=
    merge_conflict_eq_none_iff.mp (by decide)
  have third : (ofFacts [(⟨1⟩, .naked)]).Apart (ofFacts [(⟨5⟩, .naked), (⟨2⟩, .wrapped)]) :=
    merge_conflict_eq_none_iff.mp (by decide)
  simp [apart, first, second, third]

theorem merged :
    table.verdict? ⟨3⟩ = some .wrapped ∧
      (table.merge other).2 = some (.alreadyRecorded ⟨3⟩ .wrapped) ∧
      table.LeastShared other ⟨3⟩ ∧ (table.merge other).1.verdict? ⟨4⟩ = some .wrapped ∧
      ([FactOperation.merge other, .record ⟨3⟩ .naked].foldl apply table).verdict? ⟨3⟩ =
        some .wrapped ∧
      (table :: apart).Pairwise Apart ∧
      table.mergeAll apart = (ofFacts [(⟨1⟩, .naked)]).mergeAll
        [ofFacts [(⟨5⟩, .naked), (⟨2⟩, .wrapped)], table] := by
  obtain ⟨merges, histories, orders⟩ := merge_leftBiased
  have known : table.verdict? ⟨3⟩ = some .wrapped := by decide
  have refused : (table.merge other).2 = some (.alreadyRecorded ⟨3⟩ .wrapped) := by decide
  refine ⟨known, refused, ((merges table other).refused _ _).mp refused |>.2, ?_,
    (histories _ table ⟨3⟩).2 .wrapped known, pairwise_apart, ?_⟩
  · rw [(merges table other).adds ⟨4⟩ (by decide)]
    decide
  · exact (orders table apart pairwise_apart).2 _ _ (List.perm_append_singleton table apart).symm

end FactTable.twoConflicts

end ErrorWrapping
