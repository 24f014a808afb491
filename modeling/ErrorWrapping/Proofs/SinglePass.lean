import ErrorWrapping.Proofs.Derivations
import Std.Data.HashSet.Lemmas

/-
One pass over a unit is exact.

While functions are under way, each of them needs the one that is settled next. The invariant
says that all other functions that were visited have the verdict that their derivation gives,
that those under way have none, and that verdicts from elsewhere are as they were.
-/

namespace ErrorWrapping

/-- The verdict is wrapped exactly when a condition holds. -/
def Verdict.Reflects (verdict : Verdict) (condition : Prop) : Prop :=
  verdict = .wrapped ↔ condition

theorem Verdict.ofWrapped_reflects {isWrapped : Bool} {condition : Prop}
    (same : isWrapped = true ↔ condition) : (ofWrapped isWrapped).Reflects condition := by
  cases isWrapped with
  | true => exact ⟨fun _ => same.mp rfl, fun _ => rfl⟩
  | false =>
      constructor
      · intro impossible
        cases impossible
      · intro holds
        exact absurd (same.mpr holds) Bool.false_ne_true

/-- A function that was visited and is not under way. -/
def Progress.Done {σ : Type} (progress : Progress σ) (under : List FuncId) (func : FuncId) : Prop :=
  progress.visited.contains func = true ∧ func ∉ under

namespace Workload

def Fallible (work : Workload) (func : FuncId) : Prop :=
  ∃ subject : Subject, work.subjects[func]? = some subject ∧ subject.hasError = true

def unvisited {σ : Type} (work : Workload) (progress : Progress σ) : Nat :=
  work.subjects.keys.countP fun func => !progress.visited.contains func

/-- The verdict wrapped from elsewhere. -/
def Recorded (base : SymbolId → Option Verdict) (id : SymbolId) : Prop :=
  base id = some .wrapped

/-- Verdicts from elsewhere are as they were, and those on functions of the unit are right. -/
structure Accurate {σ : Type} [FactStore σ] (work : Workload) (symbols : SymbolTable)
    (policy : Policy) (base : SymbolId → Option Verdict) (facts : σ) : Prop where
  foreign : ∀ id : SymbolId, work.declared[id]? = none → FactStore.verdict? facts id = base id
  own : ∀ (id : SymbolId) (callee : FuncId) (verdict : Verdict),
    work.declared[id]? = some callee → FactStore.verdict? facts id = some verdict →
    work.Fallible callee ∧ verdict.Reflects (work.Derivable symbols policy (Recorded base) callee)

/-- Facts by which an escape is judged: only a function that needs itself may lack its verdict
when it is called. -/
structure Judges {σ : Type} [FactStore σ] (work : Workload) (symbols : SymbolTable)
    (policy : Policy) (base : SymbolId → Option Verdict) (escape : Escape) (facts : σ) : Prop
    extends work.Accurate symbols policy base facts where
  settled : ∀ (target : CallTarget) (id : SymbolId) (callee : FuncId),
    escape.target = some target → target.symbol = some id → work.declared[id]? = some callee →
    ¬ AllowListed symbols policy id → work.Fallible callee → FactStore.verdict? facts id = none →
    Relation.TransGen (work.Needs symbols policy (Recorded base)) callee callee

/-- Each source is its escape, judged by some facts of a store. -/
def Judged (σ : Type) [FactStore σ] (work : Workload) (symbols : SymbolTable) (policy : Policy)
    (base : SymbolId → Option Verdict) (escapes : List Escape) (sources : List ErrorSource) :
    Prop :=
  List.Forall₂ (fun escape source => ∃ facts : σ, work.Judges symbols policy base escape facts ∧
    source = sourceOf symbols policy facts escape) escapes sources

variable {σ : Type} [FactStore σ]

/-- What holds between two steps, with the functions under way in `under`. -/
structure Invariant (work : Workload) (symbols : SymbolTable) (policy : Policy)
    (base : SymbolId → Option Verdict) (under : List FuncId) (progress : Progress σ) : Prop where
  marked : ∀ func ∈ under, progress.visited.contains func = true
  foreign : ∀ id : SymbolId, work.declared[id]? = none →
    FactStore.verdict? progress.facts id = base id
  recorded : ∀ (id : SymbolId) (func : FuncId), work.declared[id]? = some func →
    work.Fallible func → progress.Done under func →
    ∃ verdict, FactStore.verdict? progress.facts id = some verdict ∧
      verdict.Reflects (work.Derivable symbols policy (Recorded base) func)
  owner : ∀ (id : SymbolId) (func : FuncId) (verdict : Verdict),
    work.declared[id]? = some func → FactStore.verdict? progress.facts id = some verdict →
    work.Fallible func ∧ progress.Done under func
  summarized : ∀ func, work.Fallible func → progress.Done under func →
    ∃ summary ∈ progress.summaries, summary.func = func
  done : ∀ summary ∈ progress.summaries, progress.Done under summary.func
  once : (progress.summaries.map (·.func)).Nodup
  judged : ∀ summary ∈ progress.summaries, ∃ subject : Subject,
    work.subjects[summary.func]? = some subject ∧ subject.hasError = true ∧
    summary = subject.summary summary.func summary.sources ∧
    Judged σ work symbols policy base subject.escapes summary.sources

/-- What settling a function must achieve. -/
structure SettlesTo (work : Workload) (symbols : SymbolTable) (policy : Policy)
    (base : SymbolId → Option Verdict) (under : List FuncId) (func : FuncId)
    (before after : Progress σ) : Prop where
  invariant : work.Invariant symbols policy base under after
  visited : after.visited.contains func = true
  grows : ∀ other, before.visited.contains other = true → after.visited.contains other = true

variable {work : Workload} {symbols : SymbolTable} {policy : Policy}
  {base : SymbolId → Option Verdict} {under : List FuncId} {func : FuncId}
  {progress : Progress σ}

/-! ### Marking -/

theorem contains_visit {σ : Type} (progress : Progress σ) (func other : FuncId) :
    (progress.visit func).visited.contains other =
      (func == other || progress.visited.contains other) :=
  Std.HashSet.contains_insert

theorem unvisited_le_of_grows {σ : Type} {before after : Progress σ}
    (grows : ∀ other, before.visited.contains other = true → after.visited.contains other = true) :
    work.unvisited after ≤ work.unvisited before := by
  apply List.countP_mono_left
  intro other _ fresh
  cases visited : before.visited.contains other with
  | false => rfl
  | true =>
      rw [grows other visited] at fresh
      exact fresh

theorem unvisited_visit_lt {σ : Type} {work : Workload} {progress : Progress σ} {func : FuncId}
    {subject : Subject} (found : work.subjects[func]? = some subject)
    (fresh : progress.visited.contains func = false) :
    work.unvisited (progress.visit func) < work.unvisited progress := by
  have member : func ∈ work.subjects.keys := by
    rw [Std.HashMap.mem_keys, Std.HashMap.mem_iff_isSome_getElem?, found]
    rfl
  simp only [unvisited]
  generalize work.subjects.keys = keys at member
  induction keys with
  | nil => cases member
  | cons head rest ih =>
      have restLe : rest.countP (fun other => !(progress.visit func).visited.contains other) ≤
          rest.countP fun other => !progress.visited.contains other := by
        apply List.countP_mono_left
        intro other _ free
        rw [contains_visit, Bool.not_or, Bool.and_eq_true] at free
        exact free.2
      rw [List.countP_cons, List.countP_cons]
      by_cases same : head = func
      · rw [same, fresh, contains_visit]
        simp only [BEq.rfl, Bool.true_or, Bool.not_true, Bool.not_false, if_true,
          Bool.false_eq_true, if_false]
        omega
      · have inRest : func ∈ rest := by
          rcases List.mem_cons.mp member with atHead | inRest
          · exact absurd atHead.symm same
          · exact inRest
        have headSame : (progress.visit func).visited.contains head =
            progress.visited.contains head := by
          rw [contains_visit, beq_false_of_ne (Ne.symm same), Bool.false_or]
        rw [headSame]
        have decrease := ih inRest
        omega

theorem Invariant.start (plain : work.Plain symbols policy base) {facts : σ}
    (same : ∀ id, FactStore.verdict? facts id = base id) :
    work.Invariant symbols policy base [] (begin facts) := by
  have unmarked : ∀ func, ¬ (begin facts).Done [] func := by
    intro func done
    have impossible := done.1
    simp [begin] at impossible
  refine ⟨?_, fun id _ => same id, ?_, ?_, ?_, ?_, List.nodup_nil, ?_⟩
  · intro func member
    cases member
  · intro id func _ _ done
    exact absurd done (unmarked func)
  · intro id func verdict declared found
    change FactStore.verdict? facts id = some verdict at found
    rw [same, plain.unrecorded id func declared] at found
    cases found
  · intro func _ done
    exact absurd done (unmarked func)
  · intro summary member
    cases member
  · intro summary member
    cases member

theorem Invariant.enter (invariant : work.Invariant symbols policy base under progress)
    (fresh : progress.visited.contains func = false) :
    work.Invariant symbols policy base (func :: under) (progress.visit func) := by
  have sameDone : ∀ other, (progress.visit func).Done (func :: under) other ↔
      progress.Done under other := by
    intro other
    simp only [Progress.Done, contains_visit, List.mem_cons, not_or, Bool.or_eq_true, beq_iff_eq]
    constructor
    · rintro ⟨rfl | visited, differs, outside⟩
      · exact absurd rfl differs
      · exact ⟨visited, outside⟩
    · rintro ⟨visited, outside⟩
      refine ⟨Or.inr visited, ?_, outside⟩
      intro same
      rw [same, fresh] at visited
      cases visited
  refine ⟨?_, invariant.foreign, ?_, ?_, ?_, ?_, invariant.once, invariant.judged⟩
  · intro other member
    rw [contains_visit]
    rcases List.mem_cons.mp member with rfl | member
    · rw [BEq.rfl, Bool.true_or]
    · rw [invariant.marked other member, Bool.or_true]
  · intro id other declared fallible done
    exact invariant.recorded id other declared fallible ((sameDone other).mp done)
  · intro id other verdict declared found
    obtain ⟨fallible, done⟩ := invariant.owner id other verdict declared found
    exact ⟨fallible, (sameDone other).mpr done⟩
  · intro other fallible done
    exact invariant.summarized other fallible ((sameDone other).mp done)
  · intro summary member
    exact (sameDone summary.func).mpr (invariant.done summary member)

theorem Invariant.pass (invariant : work.Invariant symbols policy base under progress)
    (passed : ¬ work.Fallible func) :
    work.Invariant symbols policy base under (progress.visit func) := by
  have sameDone : ∀ other, work.Fallible other →
      ((progress.visit func).Done under other ↔ progress.Done under other) := by
    intro other fallible
    simp only [Progress.Done, contains_visit, Bool.or_eq_true, beq_iff_eq]
    constructor
    · rintro ⟨rfl | visited, outside⟩
      · exact absurd fallible passed
      · exact ⟨visited, outside⟩
    · rintro ⟨visited, outside⟩
      exact ⟨Or.inr visited, outside⟩
  refine ⟨?_, invariant.foreign, ?_, ?_, ?_, ?_, invariant.once, invariant.judged⟩
  · intro other member
    rw [contains_visit, invariant.marked other member, Bool.or_true]
  · intro id other declared fallible done
    exact invariant.recorded id other declared fallible ((sameDone other fallible).mp done)
  · intro id other verdict declared found
    obtain ⟨fallible, done⟩ := invariant.owner id other verdict declared found
    exact ⟨fallible, (sameDone other fallible).mpr done⟩
  · intro other fallible done
    exact invariant.summarized other fallible ((sameDone other fallible).mp done)
  · intro summary member
    obtain ⟨subject, found, fallible, _⟩ := invariant.judged summary member
    exact (sameDone _ ⟨subject, found, fallible⟩).mpr (invariant.done summary member)

theorem Invariant.accurate (invariant : work.Invariant symbols policy base under progress) :
    work.Accurate symbols policy base progress.facts := by
  refine ⟨invariant.foreign, fun id callee verdict declared stored => ?_⟩
  obtain ⟨fallible, done⟩ := invariant.owner id callee verdict declared stored
  obtain ⟨verdict', stored', reflects⟩ := invariant.recorded id callee declared fallible done
  cases stored.symm.trans stored'
  exact ⟨fallible, reflects⟩

/-- A symbol that is recorded as wrapped was so before, or belongs to a derivable function. -/
theorem Accurate.recorded_or_derivable {facts : σ}
    (accurate : work.Accurate symbols policy base facts) {id : SymbolId}
    (wrapped : FactStore.verdict? facts id = some .wrapped) :
    Recorded base id ∨ ∃ callee, work.declared[id]? = some callee ∧
      work.Derivable symbols policy (Recorded base) callee := by
  cases declared : work.declared[id]? with
  | none => exact Or.inl ((accurate.foreign id declared).symm.trans wrapped)
  | some callee => exact Or.inr ⟨callee, rfl, (accurate.own id callee _ declared wrapped).2.mp rfl⟩

theorem Invariant.recorded_or_derivable
    (invariant : work.Invariant symbols policy base under progress) {id : SymbolId}
    (wrapped : FactStore.verdict? progress.facts id = some .wrapped) :
    Recorded base id ∨ ∃ callee, work.declared[id]? = some callee ∧
      work.Derivable symbols policy (Recorded base) callee :=
  invariant.accurate.recorded_or_derivable wrapped

/-! ### One escape -/

/-- The function of the unit that an escape calls has been visited, unless it is a wrapper. -/
def Covered (work : Workload) (symbols : SymbolTable) (policy : Policy) (escape : Escape)
    (progress : Progress σ) : Prop :=
  ∀ (target : CallTarget) (id : SymbolId) (callee : FuncId), escape.target = some target →
    target.symbol = some id → work.declared[id]? = some callee →
    ¬ AllowListed symbols policy id → progress.visited.contains callee = true

variable {subject : Subject} {escape : Escape}

theorem needs_of_escape (plain : work.Plain symbols policy base)
    (found : work.subjects[func]? = some subject) (member : escape ∈ subject.escapes)
    {target : CallTarget} {id : SymbolId} {callee : FuncId}
    (called : escape.target = some target) (named : target.symbol = some id)
    (declared : work.declared[id]? = some callee) (unlisted : ¬ AllowListed symbols policy id) :
    work.Needs symbols policy (Recorded base) func callee := by
  refine ⟨subject, escape, target, id, found, member, called, named, unlisted, ?_, declared⟩
  intro recorded
  rw [Recorded, plain.unrecorded id callee declared] at recorded
  cases recorded

theorem Invariant.judges (invariant : work.Invariant symbols policy base under progress)
    (plain : work.Plain symbols policy base)
    (reached : ∀ other ∈ under,
      Relation.ReflTransGen (work.Needs symbols policy (Recorded base)) other func)
    (found : work.subjects[func]? = some subject) (member : escape ∈ subject.escapes)
    (covered : work.Covered symbols policy escape progress) :
    work.Judges symbols policy base escape progress.facts := by
  refine ⟨invariant.accurate, ?_⟩
  intro target id callee called named declared unlisted fallible unknown
  have visited := covered target id callee called named declared unlisted
  have needs := needs_of_escape plain found member called named declared unlisted
  -- A function that was visited and has no verdict is under way, so it needs the one on top.
  by_cases underWay : callee ∈ under
  · exact Relation.TransGen.tail' (reached callee underWay) needs
  · obtain ⟨verdict, stored, _⟩ :=
      invariant.recorded id callee declared fallible ⟨visited, underWay⟩
    rw [unknown] at stored
    cases stored

/-- An escape that is judged is wrapped exactly when it can be trusted. -/
theorem source_isWrapped_iff {facts : σ} (plain : work.Plain symbols policy base)
    (judges : work.Judges symbols policy base escape facts)
    (found : work.subjects[func]? = some subject) (member : escape ∈ subject.escapes) :
    (sourceOf symbols policy facts escape).classification.isWrapped = true ↔
      work.Trusts symbols policy (Recorded base)
        (work.Derivable symbols policy (Recorded base)) escape := by
  cases called : escape.target with
  | none =>
      simp [sourceOf, called, Trusts, Classification.isWrapped]
  | some target =>
      simp only [sourceOf, called, classify_isWrapped_iff]
      constructor
      · rintro ⟨id, symbol, named, entry, listed | recorded⟩
        · exact ⟨target, id, called, named, Or.inl ⟨symbol, entry, listed⟩⟩
        · exact ⟨target, id, called, named, Or.inr (judges.recorded_or_derivable recorded)⟩
      · rintro ⟨target', id, called', named, reason⟩
        cases called.symm.trans called'
        obtain ⟨symbol, entry⟩ :=
          plain.resolved func subject escape target id found member called named
        refine ⟨id, symbol, named, entry, ?_⟩
        by_cases listed : AllowListed symbols policy id
        · obtain ⟨other, entry', isWrapper⟩ := listed
          cases entry.symm.trans entry'
          exact Or.inl isWrapper
        · right
          rcases reason with impossible | recorded | ⟨callee, declared, derivable⟩
          · exact absurd impossible listed
          · cases declared : work.declared[id]? with
            | none =>
                rw [judges.foreign id declared]
                exact recorded
            | some callee =>
                rw [Recorded, plain.unrecorded id callee declared] at recorded
                cases recorded
          · cases stored : FactStore.verdict? facts id with
            | some verdict => rw [(judges.own id callee verdict declared stored).2.mpr derivable]
            | none =>
                exact absurd (judges.settled target id callee called named declared listed
                  derivable.fallible stored) derivable.not_cycle

theorem Judged.all_isWrapped_iff (plain : work.Plain symbols policy base)
    (found : work.subjects[func]? = some subject) {escapes : List Escape}
    {sources : List ErrorSource} (judged : Judged σ work symbols policy base escapes sources)
    (listed : ∀ escape ∈ escapes, escape ∈ subject.escapes) :
    sources.all (·.classification.isWrapped) = true ↔
      ∀ escape ∈ escapes, work.Trusts symbols policy (Recorded base)
        (work.Derivable symbols policy (Recorded base)) escape := by
  induction judged with
  | nil => simp
  | @cons escape source rest later judgement _ ih =>
      obtain ⟨facts, judges, rfl⟩ := judgement
      have here := source_isWrapped_iff plain judges found (listed escape (List.mem_cons_self ..))
      rw [List.all_cons, Bool.and_eq_true, here, List.forall_mem_cons,
        ih fun other inRest => listed other (List.mem_cons_of_mem _ inRest)]

/-- The verdict of a summary is the one that derivations give. -/
theorem Judged.reflects (plain : work.Plain symbols policy base)
    (found : work.subjects[func]? = some subject) (fallible : subject.hasError = true)
    {sources : List ErrorSource}
    (judged : Judged σ work symbols policy base subject.escapes sources) :
    (subject.summary func sources).verdict.Reflects
      (work.Derivable symbols policy (Recorded base) func) := by
  rw [derivable_iff found fallible]
  exact Verdict.ofWrapped_reflects (judged.all_isWrapped_iff plain found fun _ member => member)

theorem Invariant.exact (invariant : work.Invariant symbols policy base under progress)
    (plain : work.Plain symbols policy base) {summary : Summary}
    (member : summary ∈ progress.summaries) :
    summary.verdict.Reflects (work.Derivable symbols policy (Recorded base) summary.func) := by
  obtain ⟨subject, found, fallible, same, judged⟩ := invariant.judged summary member
  rw [same]
  exact judged.reflects plain found fallible

/-- Settling at a given depth does what it must, for functions that those under way need. -/
def Settles (work : Workload) (symbols : SymbolTable) (policy : Policy)
    (base : SymbolId → Option Verdict) (depth : Nat)
    (settle : FuncId → Progress σ → Progress σ) : Prop :=
  ∀ (under : List FuncId) (func : FuncId) (progress : Progress σ),
    work.Invariant symbols policy base under progress →
    (∃ subject, work.subjects[func]? = some subject) → work.unvisited progress ≤ depth →
    (∀ other ∈ under,
      Relation.ReflTransGen (work.Needs symbols policy (Recorded base)) other func) →
    work.SettlesTo symbols policy base under func progress (settle func progress)

variable {depth : Nat} {settle : FuncId → Progress σ → Progress σ}

theorem awaited?_eq_some {σ : Type} {work : Workload} {progress : Progress σ}
    {target : CallTarget} {callee : FuncId}
    (awaited : work.awaited? progress target = some callee) :
    ∃ id, target.symbol = some id ∧ work.declared[id]? = some callee ∧
      progress.visited.contains callee = false := by
  unfold awaited? at awaited
  cases named : target.symbol with
  | none =>
      rw [named] at awaited
      cases awaited
  | some id =>
      rw [named, Option.bind_some] at awaited
      cases declared : work.declared[id]? with
      | none =>
          rw [declared] at awaited
          cases awaited
      | some func =>
          rw [declared] at awaited
          dsimp only at awaited
          split at awaited
          · cases awaited
          · rename_i fresh
            cases awaited
            exact ⟨id, rfl, declared, Bool.not_eq_true _ ▸ fresh⟩

theorem prepare_covers (plain : work.Plain symbols policy base)
    (settles : work.Settles symbols policy base depth settle)
    (invariant : work.Invariant symbols policy base under progress)
    (enough : work.unvisited progress ≤ depth)
    (reached : ∀ other ∈ under,
      Relation.ReflTransGen (work.Needs symbols policy (Recorded base)) other func)
    (found : work.subjects[func]? = some subject) (fallible : subject.hasError = true)
    (member : escape ∈ subject.escapes) :
    work.Invariant symbols policy base under
        (work.prepare symbols policy settle progress escape) ∧
      work.Covered symbols policy escape (work.prepare symbols policy settle progress escape) ∧
      ∀ other, progress.visited.contains other = true →
        (work.prepare symbols policy settle progress escape).visited.contains other = true := by
  cases called : escape.target with
  | none =>
      simp only [prepare, called]
      refine ⟨invariant, ?_, fun _ visited => visited⟩
      intro target id callee impossible
      rw [called] at impossible
      cases impossible
  | some target =>
      simp only [prepare, called]
      by_cases pending : classify symbols policy progress.facts target = .naked .pending
      · rw [if_pos pending]
        cases awaited : work.awaited? progress target with
        | none =>
            -- Nothing to wait for: the callee has been visited before.
            refine ⟨invariant, ?_, fun _ visited => visited⟩
            intro target' id callee called' named declared _
            cases called.symm.trans called'
            simp only [awaited?, named, Option.bind_some, declared] at awaited
            by_contra fresh
            rw [if_neg fresh] at awaited
            cases awaited
        | some callee =>
            obtain ⟨id, named, declared, _⟩ := awaited?_eq_some awaited
            have unlisted : ¬ AllowListed symbols policy id := by
              obtain ⟨id', symbol, named', entry, notWrapper, _⟩ :=
                (classify_eq_pending_iff progress.facts target).mp pending
              cases named.symm.trans named'
              rintro ⟨symbol', entry', isWrapper⟩
              cases entry.symm.trans entry'
              rw [notWrapper] at isWrapper
              cases isWrapper
            have needs := needs_of_escape plain found member called named declared unlisted
            obtain ⟨listed, isListed, _⟩ := (plain.declared_iff id callee).mp declared
            -- The callee is settled now, while all that were under way still are.
            have after := settles under callee progress invariant ⟨listed, isListed⟩ enough
              fun other underWay => (reached other underWay).tail needs
            refine ⟨after.invariant, ?_, after.grows⟩
            intro target' id' callee' called' named' declared' _
            cases called.symm.trans called'
            cases named.symm.trans named'
            cases declared.symm.trans declared'
            exact after.visited
      · rw [if_neg pending]
        refine ⟨invariant, ?_, fun _ visited => visited⟩
        intro target' id callee called' named declared unlisted
        cases called.symm.trans called'
        obtain ⟨symbol, entry, within⟩ := plain.inScope id callee declared
        -- A call that is not pending has a verdict, and only functions that are done have one.
        cases stored : FactStore.verdict? progress.facts id with
        | some verdict => exact (invariant.owner id callee verdict declared stored).2.1
        | none =>
            refine absurd ((classify_eq_pending_iff progress.facts target).mpr ?_) pending
            refine ⟨id, symbol, named, entry, ?_, stored, ?_, within⟩
            · cases isWrapper : policy.isWrapper symbol.signature with
              | false => rfl
              | true => exact absurd ⟨symbol, entry, isWrapper⟩ unlisted
            · exact plain.direct func callee subject escape target id found fallible member called
                named declared

/-! ### One function -/

theorem classifyAll_judges (plain : work.Plain symbols policy base)
    (settles : work.Settles symbols policy base depth settle)
    (reached : ∀ other ∈ under,
      Relation.ReflTransGen (work.Needs symbols policy (Recorded base)) other func)
    (found : work.subjects[func]? = some subject) (fallible : subject.hasError = true)
    (escapes : List Escape) (listed : ∀ escape ∈ escapes, escape ∈ subject.escapes)
    {progress : Progress σ} (invariant : work.Invariant symbols policy base under progress)
    (enough : work.unvisited progress ≤ depth) :
    work.Invariant symbols policy base under
        (work.classifyAll symbols policy settle progress escapes).1 ∧
      (∀ other, progress.visited.contains other = true →
        (work.classifyAll symbols policy settle progress escapes).1.visited.contains other =
          true) ∧
      Judged σ work symbols policy base escapes
        (work.classifyAll symbols policy settle progress escapes).2 := by
  induction escapes generalizing progress with
  | nil => exact ⟨invariant, fun _ visited => visited, .nil⟩
  | cons escape rest ih =>
      have member := listed escape (List.mem_cons_self ..)
      obtain ⟨ready, covered, grows⟩ :=
        prepare_covers plain settles invariant enough reached found fallible member
      have judges := ready.judges plain reached found member covered
      obtain ⟨after, growsLater, later⟩ := ih
        (fun other inRest => listed other (List.mem_cons_of_mem _ inRest)) ready
        (Nat.le_trans (unvisited_le_of_grows grows) enough)
      exact ⟨after, fun other visited => growsLater other (grows other visited),
        .cons ⟨_, judges, rfl⟩ later⟩

/-- With its escapes judged, the function on top can be concluded. -/
theorem Invariant.conclude [LawfulFactStore σ] (plain : work.Plain symbols policy base)
    (invariant : work.Invariant symbols policy base (func :: under) progress)
    (outside : func ∉ under) (found : work.subjects[func]? = some subject)
    (fallible : subject.hasError = true) {sources : List ErrorSource}
    (judged : Judged σ work symbols policy base subject.escapes sources) :
    work.Invariant symbols policy base under
      (progress.conclude (subject.summary func sources)) := by
  have marked := invariant.marked func (List.mem_cons_self ..)
  have doneNow : (progress.conclude (subject.summary func sources)).Done under func := by
    refine ⟨?_, outside⟩
    rw [Progress.visited_conclude]
    exact marked
  have doneBefore : ∀ other, other ≠ func →
      (progress.conclude (subject.summary func sources)).Done under other →
      progress.Done (func :: under) other := by
    rintro other differs ⟨visited, notUnder⟩
    rw [Progress.visited_conclude] at visited
    exact ⟨visited, List.not_mem_cons_of_ne_of_not_mem differs notUnder⟩
  have doneStill : ∀ other, progress.Done (func :: under) other →
      (progress.conclude (subject.summary func sources)).Done under other := by
    rintro other ⟨visited, notUnder⟩
    refine ⟨?_, fun underWay => notUnder (List.mem_cons_of_mem _ underWay)⟩
    rw [Progress.visited_conclude]
    exact visited
  have own : ∀ id, subject.symbol = some id → work.declared[id]? = some func :=
    fun id named => (plain.declared_iff id func).mpr ⟨subject, found, named⟩
  -- The symbol of the function had no verdict while the function was under way.
  have free : ∀ id, work.declared[id]? = some func →
      FactStore.verdict? progress.facts id = none := by
    intro id declared
    cases stored : FactStore.verdict? progress.facts id with
    | none => rfl
    | some verdict =>
        have done := (invariant.owner id func verdict declared stored).2
        exact absurd (List.mem_cons_self ..) done.2
  refine ⟨?_, ?_, ?_, ?_, ?_, ?_, ?_, ?_⟩
  · intro other underWay
    rw [Progress.visited_conclude]
    exact invariant.marked other (List.mem_cons_of_mem _ underWay)
  · intro id undeclared
    have differs : subject.symbol ≠ some id := by
      intro named
      rw [own id named] at undeclared
      cases undeclared
    rw [Progress.verdict?_conclude, invariant.foreign id undeclared]
    simp [Subject.summary, differs]
  · intro id other declared hasError done
    rw [Progress.verdict?_conclude]
    by_cases same : other = func
    · subst same
      obtain ⟨subject', found', named⟩ := (plain.declared_iff id other).mp declared
      cases found.symm.trans found'
      refine ⟨(subject.summary other sources).verdict, ?_, judged.reflects plain found fallible⟩
      rw [free id declared]
      simp [Subject.summary, named]
    · obtain ⟨verdict, stored, judged⟩ :=
        invariant.recorded id other declared hasError (doneBefore other same done)
      refine ⟨verdict, ?_, judged⟩
      rw [stored]
      rfl
  · intro id other verdict declared stored
    by_cases same : other = func
    · subst same
      exact ⟨⟨subject, found, fallible⟩, doneNow⟩
    · have differs : subject.symbol ≠ some id := by
        intro named
        cases declared.symm.trans (own id named)
        exact same rfl
      rw [Progress.verdict?_conclude] at stored
      simp only [Subject.summary, differs, if_false, Option.orElse_eq_orElse, Option.orElse_eq_or,
        Option.or_none] at stored
      obtain ⟨hasError, done⟩ := invariant.owner id other verdict declared stored
      exact ⟨hasError, doneStill other done⟩
  · intro other hasError done
    rw [Progress.summaries_conclude]
    by_cases same : other = func
    · exact ⟨_, List.mem_cons_self .., same.symm⟩
    · obtain ⟨summary, member, named⟩ :=
        invariant.summarized other hasError (doneBefore other same done)
      exact ⟨summary, List.mem_cons_of_mem _ member, named⟩
  · intro summary member
    rw [Progress.summaries_conclude] at member
    rcases List.mem_cons.mp member with rfl | earlier
    · exact doneNow
    · exact doneStill summary.func (invariant.done summary earlier)
  · rw [Progress.summaries_conclude, List.map_cons, List.nodup_cons]
    refine ⟨fun again => ?_, invariant.once⟩
    obtain ⟨summary, earlier, same⟩ := List.mem_map.mp again
    have done := invariant.done summary earlier
    rw [same] at done
    exact done.2 (List.mem_cons_self ..)
  · intro summary member
    rw [Progress.summaries_conclude] at member
    rcases List.mem_cons.mp member with rfl | earlier
    · exact ⟨subject, found, fallible, rfl, judged⟩
    · exact invariant.judged summary earlier

theorem settle_settles [LawfulFactStore σ] (plain : work.Plain symbols policy base) (depth : Nat) :
    work.Settles symbols policy base depth
      (work.settle symbols policy depth : FuncId → Progress σ → Progress σ) := by
  induction depth with
  | zero =>
      intro under func progress invariant listed enough _
      obtain ⟨subject, found⟩ := listed
      -- With no depth left, there is nothing left to visit.
      have visited : progress.visited.contains func = true := by
        cases fresh : progress.visited.contains func with
        | true => rfl
        | false =>
            have decrease := unvisited_visit_lt found fresh
            omega
      exact ⟨invariant, visited, fun _ visited => visited⟩
  | succ depth ih =>
      intro under func progress invariant listed enough reached
      obtain ⟨subject, found⟩ := listed
      cases visited : progress.visited.contains func with
      | true =>
          rw [settle_of_visited visited]
          exact ⟨invariant, visited, fun _ visited => visited⟩
      | false =>
          have growsHere : ∀ other, progress.visited.contains other = true →
              (progress.visit func).visited.contains other = true := by
            intro other already
            rw [contains_visit, already, Bool.or_true]
          have marked : (progress.visit func).visited.contains func = true := by
            rw [contains_visit, BEq.rfl, Bool.true_or]
          cases fallible : subject.hasError with
          | false =>
              have passed : ∀ other, work.subjects[func]? = some other →
                  other.hasError = false := by
                intro other found'
                cases found.symm.trans found'
                exact fallible
              rw [settle_of_passed visited passed]
              refine ⟨invariant.pass ?_, marked, growsHere⟩
              rintro ⟨other, found', hasError⟩
              rw [passed other found'] at hasError
              cases hasError
          | true =>
              have outside : func ∉ under := by
                intro underWay
                rw [invariant.marked func underWay] at visited
                cases visited
              have decrease := unvisited_visit_lt found visited
              have reachedTop : ∀ other ∈ func :: under, Relation.ReflTransGen
                  (work.Needs symbols policy (Recorded base)) other func := by
                intro other member
                rcases List.mem_cons.mp member with rfl | underWay
                · exact .refl
                · exact reached other underWay
              obtain ⟨after, grows, judged⟩ := classifyAll_judges plain ih reachedTop found fallible
                subject.escapes (fun _ member => member) (invariant.enter visited) (by omega)
              rw [settle_of_fallible visited found fallible]
              refine ⟨after.conclude plain outside found fallible judged, ?_, ?_⟩
              · rw [Progress.visited_conclude]
                exact grows func marked
              · intro other already
                rw [Progress.visited_conclude]
                exact grows other (growsHere other already)

/-! ### The whole unit -/

theorem foldl_settle_exact [LawfulFactStore σ] (plain : work.Plain symbols policy base)
    (order : List FuncId) (listed : ∀ func ∈ order, ∃ subject, work.subjects[func]? = some subject)
    {progress : Progress σ} (invariant : work.Invariant symbols policy base [] progress)
    (enough : work.unvisited progress ≤ depth) :
    work.Invariant symbols policy base []
        (order.foldl (fun progress func => work.settle symbols policy depth func progress)
          progress) ∧
      (∀ other, progress.visited.contains other = true ∨ other ∈ order →
        (order.foldl (fun progress func => work.settle symbols policy depth func progress)
          progress).visited.contains other = true) := by
  induction order generalizing progress with
  | nil =>
      refine ⟨invariant, fun other reason => ?_⟩
      rcases reason with visited | impossible
      · exact visited
      · cases impossible
  | cons func rest ih =>
      have step := settle_settles plain depth [] func progress invariant
        (listed func (List.mem_cons_self ..)) enough (fun _ member => by cases member)
      obtain ⟨after, visited⟩ :=
        ih (fun other member => listed other (List.mem_cons_of_mem _ member))
          step.invariant (Nat.le_trans (unvisited_le_of_grows step.grows) enough)
      refine ⟨after, fun other reason => visited other ?_⟩
      rcases reason with already | member
      · exact Or.inl (step.grows other already)
      · rcases List.mem_cons.mp member with rfl | inRest
        · exact Or.inl step.visited
        · exact Or.inr inRest

/-- After the run, every function with an error result has a summary, its verdict is the one that
derivations give, and so is the verdict recorded under its symbol. -/
theorem run_exact [LawfulFactStore σ] {facts : σ}
    (plain : work.Plain symbols policy (FactStore.verdict? facts)) :
    work.Invariant symbols policy (FactStore.verdict? facts) [] (work.run symbols policy facts) ∧
      ∀ func ∈ work.order, (work.run symbols policy facts).Done [] func := by
  have enough : work.unvisited (begin facts) ≤ work.subjects.size + 1 := by
    have bound : work.unvisited (begin facts) ≤ work.subjects.keys.length := List.countP_le_length
    rw [Std.HashMap.length_keys] at bound
    omega
  obtain ⟨invariant, visited⟩ := foldl_settle_exact plain work.order plain.listed
    (Invariant.start plain fun _ => rfl) enough
  exact ⟨invariant, fun func member => ⟨visited func (Or.inr member), List.not_mem_nil⟩⟩

end Workload

end ErrorWrapping
