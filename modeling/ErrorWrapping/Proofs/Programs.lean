import ErrorWrapping.Proofs.Lowering

/-
Lowered programs.

A dump that is not refused becomes a program whose units are numbered in order, have different
paths and are planted. A planted unit can be walked, the walk meets every function of its arena,
and only declared functions have symbols.
-/

namespace ErrorWrapping

namespace Package

variable {unit : Package}

theorem bodyNodes?_of_walkWithin {height : Nat} {decl : FuncId} {nodes : List NodeRef}
    (walked : unit.arena.walkWithin .whole height (.literal decl) = some nodes)
    (enough : height ≤ unit.arena.height) :
    ∃ body, unit.bodyNodes? decl = some body ∧ nodes = .literal decl :: body := by
  obtain ⟨lower, children, below, rfl, known, collected, rfl⟩ :=
    Arena.walkWithin_eq_some (Arena.Reach.enters_whole _) walked
  obtain ⟨function, found, listed⟩ := Option.bind_eq_some_iff.mp known
  have walkedBody : unit.arena.walk .whole children = some below.flatten :=
    Arena.Lists.walk ⟨below, collected, rfl⟩ (Nat.le_of_succ_le enough)
  refine ⟨below.flatten, ?_, rfl⟩
  rw [bodyNodes?, found, Option.bind_eq_bind, Option.bind_some, listed, Option.bind_eq_bind,
    Option.bind_some, walkedBody]

/-- Walking declared functions as literals lists them and what their bodies hold. -/
theorem bodies_of_lists {height : Nat} (enough : height ≤ unit.arena.height) (decls : List FuncId)
    {nodes : List NodeRef} (listed : unit.arena.Lists height (decls.map .literal) nodes) :
    ∃ bodies, decls.mapM unit.bodyNodes? = some bodies ∧
      nodes.Perm (decls.map .literal ++ bodies.flatten) := by
  induction decls generalizing nodes with
  | nil =>
      obtain ⟨lists, collected, rfl⟩ := listed
      cases collected
      exact ⟨[], rfl, .refl _⟩
  | cons decl rest ih =>
      obtain ⟨first, later, listedFirst, listedLater, rfl⟩ :=
        Arena.lists_append_iff.mp (show unit.arena.Lists height
          ([.literal decl] ++ rest.map .literal) nodes from listed)
      obtain ⟨lists, collected, rfl⟩ := listedFirst
      cases mapM_eq_some_iff.mp collected with
      | cons walked nothing =>
          cases nothing
          obtain ⟨body, foundBody, rfl⟩ := bodyNodes?_of_walkWithin walked enough
          obtain ⟨bodies, found, same⟩ := ih listedLater
          refine ⟨body :: bodies, ?_, ?_⟩
          · exact mapM_eq_some_iff.mpr (.cons foundBody (mapM_eq_some_iff.mp found))
          · simp only [List.flatten_cons, List.flatten_nil, List.append_nil, List.map_cons,
              List.cons_append]
            refine .cons _ ((same.append_left body).trans ?_)
            exact List.perm_append_comm_assoc body _ _

/-- The declared functions and the nodes that the walk meets are all nodes, each once. -/
theorem Planted.allNodes? (planted : unit.Planted) :
    ∃ nodes, unit.allNodes? = some nodes ∧ (unit.decls.map NodeRef.literal ++ nodes).Nodup ∧
      ∀ ref, ref ∈ unit.decls.map NodeRef.literal ++ nodes ↔ unit.arena.Holds ref := by
  obtain ⟨height, nodes, enough, listed, once, all⟩ := planted.listed
  have bound : height ≤ unit.arena.height := Nat.le_trans (Nat.le_add_right _ _) enough
  obtain ⟨first, globals, listedDecls, listedGlobals, rfl⟩ := Arena.lists_append_iff.mp listed
  obtain ⟨bodies, found, same⟩ := bodies_of_lists bound unit.decls listedDecls
  have walkedGlobals : unit.globalNodes? = some globals := listedGlobals.walk bound
  have entries : (Growth.entries ⟨unit.decls.map .literal ++ unit.globalRefs, [], unit.decls⟩
      (first ++ globals)).Perm (unit.decls.map .literal ++ (bodies.flatten ++ globals)) := by
    rw [Growth.entries, List.map_nil, List.append_nil, ← List.append_assoc]
    exact same.append_right globals
  refine ⟨bodies.flatten ++ globals, ?_, entries.nodup_iff.mp once, fun ref => ?_⟩
  · rw [Package.allNodes?, found, Option.bind_eq_bind, Option.bind_some, walkedGlobals]
    rfl
  · rw [← entries.mem_iff]
    exact all ref

theorem Planted.exists_allNodes? (planted : unit.Planted) :
    ∃ nodes, unit.allNodes? = some nodes := by
  obtain ⟨nodes, walked, _⟩ := planted.allNodes?
  exact ⟨nodes, walked⟩

/-- Every function of the arena is declared or a literal that occurs. -/
theorem Planted.has (planted : unit.Planted) {func : FuncId} {function : Function}
    (found : unit.arena.function? func = some function) : unit.Has func := by
  obtain ⟨height, nodes, enough, listed, _, all⟩ := planted.listed
  have holds : unit.arena.Holds (.literal func) := (Array.getElem?_eq_some_iff.mp found).1
  have member : NodeRef.literal func ∈ nodes := by
    simpa [Growth.entries] using (all _).mpr holds
  have walked := listed.walk (Nat.le_trans (Nat.le_add_right _ _) enough)
  obtain ⟨root, isRoot, _, path⟩ := (Arena.mem_walk_iff walked).mp member
  rcases List.mem_append.mp isRoot with isDecl | isGlobal
  · obtain ⟨decl, declared, rfl⟩ := List.mem_map.mp isDecl
    rcases Relation.ReflTransGen.cases_head path with same | ⟨child, first, rest⟩
    · cases same
      exact Or.inl declared
    · obtain ⟨children, known, inChildren, entered⟩ := first
      obtain ⟨outer, foundOuter, roots⟩ := Option.bind_eq_some_iff.mp known
      exact Or.inr (Or.inl ⟨decl, declared, outer, children, foundOuter, roots,
        child, inChildren, entered, rest⟩)
  · exact Or.inr (Or.inr ⟨root, isGlobal, Arena.Reach.enters_whole root, path⟩)

theorem Planted.declared (planted : unit.Planted) {func : FuncId} {function : Function}
    (found : unit.arena.function? func = some function) (hasSymbol : function.symbol ≠ none) :
    func ∈ unit.decls :=
  planted.named func function found hasSymbol

end Package

/-- Units are numbered in order and have different paths. -/
structure Program.Indexed (program : Program) : Prop where
  numbered : ∀ (index : Nat) (unit : Package), program.units[index]? = some unit →
    unit.id = ⟨index⟩
  distinct : (program.units.toList.map (·.path)).Nodup

/-- What lowering makes sure of. -/
structure Program.Lowered (program : Program) : Prop extends Program.Indexed program where
  planted : ∀ unit ∈ program.units, unit.Planted

namespace Dump

theorem firstRepeat?_eq_none_iff {seen texts : List String} :
    firstRepeat? seen texts = none ↔ texts.Nodup ∧ ∀ text ∈ texts, text ∉ seen := by
  induction texts generalizing seen with
  | nil => simp [firstRepeat?]
  | cons text rest ih =>
      unfold firstRepeat?
      by_cases again : text ∈ seen
      · simp [again]
      · rw [if_neg again, ih, List.nodup_cons]
        simp only [List.mem_cons, not_or, forall_eq_or_imp]
        grind

/-- A dump is not refused exactly when paths, and variables within each unit, are distinct. -/
theorem fault?_eq_none_iff {seen : List String} {units : List UnitEntry} :
    fault? seen units = none ↔ (units.map (·.path)).Nodup ∧
      (∀ path ∈ units.map (·.path), path ∉ seen) ∧
      ∀ unit ∈ units, (unit.vars.map (·.id)).Nodup := by
  induction units generalizing seen with
  | nil => simp [fault?]
  | cons unit rest ih =>
      unfold fault?
      by_cases again : unit.path ∈ seen
      · simp [again]
      · rw [if_neg again]
        cases repeated : firstRepeat? [] (unit.vars.map (·.id)) with
        | some id =>
            have twice : ¬ (unit.vars.map (·.id)).Nodup := by
              intro once
              have none : firstRepeat? [] (unit.vars.map (·.id)) = none :=
                firstRepeat?_eq_none_iff.mpr ⟨once, fun _ _ impossible => by cases impossible⟩
              rw [none] at repeated
              cases repeated
            simp [twice]
        | none =>
            have once := (firstRepeat?_eq_none_iff.mp repeated).1
            simp only [ih, List.map_cons, List.nodup_cons, List.mem_cons, not_or, forall_eq_or_imp,
              once, again]
            grind

theorem lower_of_fault? {dump : Dump} (accepted : fault? [] dump.units = none) :
    dump.lower = .ok (dump.toProgram.1, dump.toProgram.2) := by
  rw [lower, accepted]

/-- What holds of every lowered unit holds of all units, if it does of those that are there. -/
theorem forall_units_lowerUnits {holds : Package → Prop}
    (each : ∀ (tables : Tables) (id : UnitId) (entry : UnitEntry) (names : TypeNames)
      (warnings : List Warning),
      holds ((lowerUnit tables id entry).run ⟨names, .empty, warnings⟩).1)
    (tables : Tables) (units : List UnitEntry) {program : Program} (names : TypeNames)
    (warnings : List Warning) (start : ∀ unit ∈ program.units, holds unit) :
    ∀ unit ∈ (lowerUnits tables program names warnings units).1.units, holds unit := by
  induction units generalizing program names warnings with
  | nil => exact start
  | cons entry rest ih =>
      unfold lowerUnits
      refine ih _ _ fun unit member => ?_
      rcases Array.mem_push.mp member with earlier | rfl
      · exact start unit earlier
      · exact each tables program.nextUnit entry names warnings

theorem lowerUnits_units (tables : Tables) (program : Program) (names : TypeNames)
    (warnings : List Warning) (units : List UnitEntry)
    (numbered : ∀ (index : Nat) (unit : Package), program.units[index]? = some unit →
      unit.id = ⟨index⟩) :
    let lowered := (lowerUnits tables program names warnings units).1
    (∀ (index : Nat) (unit : Package), lowered.units[index]? = some unit → unit.id = ⟨index⟩) ∧
      lowered.units.toList.map (·.path) =
        program.units.toList.map (·.path) ++ units.map (·.path) := by
  induction units generalizing program names warnings with
  | nil => exact ⟨numbered, by simp [lowerUnits]⟩
  | cons entry rest ih =>
      obtain ⟨sameId, samePath⟩ :=
        header_lowerUnit tables program.nextUnit entry ⟨names, .empty, warnings⟩
      unfold lowerUnits
      have later := ih (program.addUnit
        ((lowerUnit tables program.nextUnit entry).run ⟨names, .empty, warnings⟩).1)
        ((lowerUnit tables program.nextUnit entry).run ⟨names, .empty, warnings⟩).2.names
        ((lowerUnit tables program.nextUnit entry).run ⟨names, .empty, warnings⟩).2.warnings ?_
      · refine ⟨later.1, later.2.trans ?_⟩
        simp [Program.addUnit, samePath]
      · intro index unit found
        rw [Program.addUnit, Array.getElem?_push] at found
        split at found
        · rename_i atEnd
          cases found
          rw [sameId, atEnd]
          rfl
        · exact numbered index unit found

/-- The tables that the units of a dump are lowered with. -/
def tables (dump : Dump) : Tables :=
  { decls := dump.types
    files := (lowerFiles dump.files).1
    fileIds := (lowerFiles dump.files).2
    symbols := (lowerSymbols dump).symbols
    symbolIds := (lowerSymbols dump).ids
    unit := ""
    varIds := ∅ }

/-- What holds of every lowered unit holds of the units of a dump. -/
theorem forall_units_toProgram {holds : Package → Prop}
    (each : ∀ (tables : Tables) (id : UnitId) (entry : UnitEntry) (names : TypeNames)
      (warnings : List Warning),
      holds ((lowerUnit tables id entry).run ⟨names, .empty, warnings⟩).1)
    (dump : Dump) : ∀ unit ∈ dump.toProgram.1.units, holds unit :=
  forall_units_lowerUnits each dump.tables dump.units (lowerSymbols dump).names []
    fun _ member => absurd member (by simp)

theorem units_toProgram (dump : Dump) :
    (∀ (index : Nat) (unit : Package), dump.toProgram.1.units[index]? = some unit →
      unit.id = ⟨index⟩) ∧
    (∀ unit ∈ dump.toProgram.1.units, unit.Planted) ∧
    dump.toProgram.1.units.toList.map (·.path) = dump.units.map (·.path) := by
  obtain ⟨numbered, paths⟩ := lowerUnits_units dump.tables
    { files := (lowerFiles dump.files).1, symbols := (lowerSymbols dump).symbols }
    (lowerSymbols dump).names [] dump.units
    fun _ _ found => absurd (Array.mem_of_getElem? found) (by simp)
  exact ⟨numbered, forall_units_toProgram planted_lowerUnit dump, paths⟩

theorem lowered_toProgram {dump : Dump} (once : (dump.units.map (·.path)).Nodup) :
    dump.toProgram.1.Lowered := by
  obtain ⟨numbered, planted, paths⟩ := units_toProgram dump
  refine ⟨⟨numbered, ?_⟩, planted⟩
  rw [paths]
  exact once

theorem fault?_of_lower {dump : Dump} {program : Program} {warnings : List Warning}
    (accepted : dump.lower = .ok (program, warnings)) :
    fault? [] dump.units = none ∧ dump.toProgram = (program, warnings) := by
  unfold lower at accepted
  split at accepted
  · cases accepted
  · rename_i noFault
    exact ⟨noFault, Except.ok.inj accepted⟩

theorem toProgram_of_lower {dump : Dump} {program : Program} {warnings : List Warning}
    (accepted : dump.lower = .ok (program, warnings)) : dump.toProgram.1 = program :=
  congrArg Prod.fst (fault?_of_lower accepted).2

/-- A dump that is not refused gives a program that is in order. -/
theorem lowered_of_lower {dump : Dump} {program : Program} {warnings : List Warning}
    (accepted : dump.lower = .ok (program, warnings)) : program.Lowered := by
  obtain ⟨noFault, same⟩ := fault?_of_lower accepted
  have lowered := lowered_toProgram (fault?_eq_none_iff.mp noFault).1
  rw [same] at lowered
  exact lowered

end Dump

end ErrorWrapping
