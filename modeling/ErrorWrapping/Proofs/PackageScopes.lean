import ErrorWrapping.Policy
import Mathlib.Data.List.DropRight

/-
Scopes of packages.

A path lies in a scope when it begins with the segments of the scope. A scope is stored without
blanks in front and without slashes at its end. The slashes are dropped after the blanks, and once
each: of a text with a blank before its last slashes the blank stays, and such a scope, entered
again, becomes another one.
-/

namespace ErrorWrapping

/-! ### Segments -/

namespace Policy

/-- The texts between the slashes of a package path. -/
def segments (path : String) : List (List Char) :=
  path.toList.splitOn '/'

theorem dropStart?_eq_some_iff {start text rest : List Char} :
    dropStart? start text = some rest ↔ text = start ++ rest := by
  induction start generalizing text with
  | nil => exact Option.some_inj
  | cons c start ih =>
      cases text with
      | nil => simp [dropStart?]
      | cons d text =>
          rw [dropStart?, List.cons_append, List.cons.injEq]
          by_cases same : c = d
          · rw [if_pos same, ih]
            exact (and_iff_right same.symm).symm
          · rw [if_neg same]
            constructor
            · intro impossible
              cases impossible
            · intro both
              exact absurd both.1.symm same

theorem inScope_iff_continues {policy : Policy} {path : String} :
    policy.inScope path = true ↔
      path.toList = policy.scope.toList ∨
        ∃ rest, path.toList = policy.scope.toList ++ '/' :: rest := by
  unfold inScope
  cases found : dropStart? policy.scope.toList path.toList with
  | none =>
      have absent : ∀ rest, path.toList ≠ policy.scope.toList ++ rest := by
        intro rest same
        rw [dropStart?_eq_some_iff.mpr same] at found
        cases found
      constructor
      · intro impossible
        cases impossible
      · rintro (same | ⟨rest, same⟩)
        · exact absurd (same.trans (List.append_nil _).symm) (absent [])
        · exact absurd same (absent ('/' :: rest))
  | some rest =>
      rw [dropStart?_eq_some_iff.mp found]
      cases rest with
      | nil => simp
      | cons c rest => simp

/-- Joining segments again: more segments continue the text after a slash. -/
theorem intercalate_append {first more : List (List Char)} (nonempty : first ≠ [])
    (longer : more ≠ []) :
    ['/'].intercalate (first ++ more) =
      ['/'].intercalate first ++ '/' :: ['/'].intercalate more := by
  induction first with
  | nil => exact absurd rfl nonempty
  | cons segment rest ih =>
      by_cases last : rest = []
      · rw [last, List.singleton_append, List.intercalate_cons_of_ne_nil longer,
          List.intercalate_singleton, List.append_assoc]
        rfl
      · rw [List.cons_append, List.intercalate_cons_of_ne_nil (by simp [last]), ih last,
          List.intercalate_cons_of_ne_nil last]
        simp

theorem segments_prefix_iff {scope path : String} :
    segments scope <+: segments path ↔
      path.toList = scope.toList ∨ ∃ rest, path.toList = scope.toList ++ '/' :: rest := by
  unfold segments
  constructor
  · rintro ⟨more, same⟩
    have joined := congrArg (List.intercalate ['/']) same
    rw [List.intercalate_splitOn] at joined
    by_cases none : more = []
    · rw [none, List.append_nil, List.intercalate_splitOn] at joined
      exact .inl joined.symm
    · rw [intercalate_append (List.splitOn_ne_nil _ _) none, List.intercalate_splitOn] at joined
      exact .inr ⟨_, joined.symm⟩
  · rintro (same | ⟨rest, same⟩)
    · simp only [same, List.prefix_rfl]
    · rw [same, List.splitOn_append_cons_self]
      exact List.prefix_append _ _

/-- A package path is in scope exactly when its segments begin with those of the scope. -/
theorem inScope_iff_segments (policy : Policy) (path : String) :
    policy.inScope path = true ↔ segments policy.scope <+: segments path :=
  inScope_iff_continues.trans segments_prefix_iff.symm

end Policy

/-! ### Ends of a text -/

namespace Text

variable {drop : Char → Bool} {chars tail : List Char}

theorem dropEnd_split (drop : Char → Bool) (chars : List Char) :
    ∃ tail, chars = dropEnd drop chars ++ tail ∧ ∀ c ∈ tail, drop c = true :=
  ⟨chars.rtakeWhile drop, List.rdropWhile_append_rtakeWhile.symm,
    fun _ member => List.mem_rtakeWhile_imp member⟩

theorem last_dropEnd {c : Char} (last : c ∈ (dropEnd drop chars).getLast?) : drop c = false := by
  obtain ⟨nonempty, rfl⟩ := List.mem_getLast?_eq_getLast last
  exact Bool.eq_false_iff.mpr (List.rdropWhile_last_not drop chars nonempty)

theorem dropEnd_eq_self (kept : ∀ c ∈ chars.getLast?, drop c = false) :
    dropEnd drop chars = chars := by
  refine List.rdropWhile_eq_self_iff.mpr fun nonempty dropped => ?_
  rw [kept _ (List.getLast?_eq_some_getLast nonempty)] at dropped
  cases dropped

theorem dropEnd_append (dropped : ∀ c ∈ tail, drop c = true) :
    dropEnd drop (chars ++ tail) = dropEnd drop chars := by
  unfold dropEnd
  rw [List.reverse_append, List.dropWhile_append_of_pos]
  intro c member
  exact dropped c (List.mem_reverse.mp member)

theorem dropFront_split (drop : Char → Bool) (chars : List Char) :
    ∃ front, chars = front ++ chars.dropWhile drop ∧ ∀ c ∈ front, drop c = true :=
  ⟨chars.takeWhile drop, List.takeWhile_append_dropWhile.symm,
    fun _ member => List.mem_takeWhile_imp member⟩

theorem first_dropWhile {c : Char} (first : c ∈ (chars.dropWhile drop).head?) :
    drop c = false := by
  have kept := List.head?_dropWhile_not drop chars
  rw [first] at kept
  exact kept

theorem dropWhile_eq_self (kept : ∀ c ∈ chars.head?, drop c = false) :
    chars.dropWhile drop = chars := by
  cases chars with
  | nil => rfl
  | cons c rest => exact List.dropWhile_cons_of_neg (by simp [kept c rfl])

end Text

/-! ### Stored scopes -/

namespace Policy

variable {scope : String} {front slashes back : List Char} {blank : Char}

/-- A text whose last slashes, which only blanks follow, come after a blank. -/
def SlashesAfterBlank (scope : String) : Prop :=
  ∃ front blank slashes back, scope.toList = front ++ [blank] ++ (slashes ++ back) ∧
    Text.isBlank blank = true ∧ slashes ≠ [] ∧ (∀ c ∈ slashes, c = '/') ∧
    ∀ c ∈ back, Text.isBlank c = true

def EndsInBlank (text : String) : Prop :=
  ∃ c ∈ text.toList.getLast?, Text.isBlank c = true

theorem toList_normalScope (scope : String) :
    (normalScope scope).toList = Text.dropEnd (· == '/') (Text.trimChars scope.toList) :=
  String.toList_ofList

/-- What is dropped from a scope: blanks in front, slashes at the end and blanks behind them. A
blank is left at the end only where slashes were dropped. -/
theorem normalScope_split (scope : String) :
    ∃ front slashes back,
      scope.toList = front ++ ((normalScope scope).toList ++ slashes) ++ back ∧
      (∀ c ∈ slashes, c = '/') ∧ (∀ c ∈ back, Text.isBlank c = true) ∧
      (EndsInBlank (normalScope scope) → slashes ≠ []) := by
  obtain ⟨front, opened, _⟩ := Text.dropFront_split Text.isBlank scope.toList
  obtain ⟨back, closed, blanks⟩ :=
    Text.dropEnd_split Text.isBlank (scope.toList.dropWhile Text.isBlank)
  obtain ⟨slashes, whole, all⟩ := Text.dropEnd_split (· == '/') (Text.trimChars scope.toList)
  rw [← toList_normalScope] at whole
  refine ⟨front, slashes, back, ?_, fun c member => beq_iff_eq.mp (all c member), blanks, ?_⟩
  · rw [← whole, List.append_assoc]
    exact opened.trans (congrArg (front ++ ·) closed)
  · rintro ⟨c, last, blank⟩ none
    rw [none, List.append_nil] at whole
    rw [← whole] at last
    rw [Text.last_dropEnd last] at blank
    cases blank

theorem first_normalScope {c : Char} (first : c ∈ (normalScope scope).toList.head?) :
    Text.isBlank c = false := by
  have initial : (normalScope scope).toList <+: scope.toList.dropWhile Text.isBlank := by
    rw [toList_normalScope]
    exact (List.rdropWhile_prefix _ _).trans (List.rdropWhile_prefix _ _)
  obtain ⟨rest, whole⟩ := initial
  have isFirst : c ∈ (scope.toList.dropWhile Text.isBlank).head? := by
    rw [← whole, List.head?_append, first]
    rfl
  exact Text.first_dropWhile isFirst

theorem last_normalScope {c : Char} (last : c ∈ (normalScope scope).toList.getLast?) :
    c ≠ '/' := by
  rw [toList_normalScope] at last
  exact bne_iff_ne.mp (by simpa using Text.last_dropEnd last)

theorem last_dropWhile_concat {c : Char}
    (last : c ∈ ((front ++ [blank]).dropWhile Text.isBlank).getLast?) : c = blank := by
  obtain ⟨dropped, whole⟩ := List.dropWhile_suffix Text.isBlank (l := front ++ [blank])
  have same := congrArg List.getLast? whole
  rw [List.getLast?_append, last, Option.some_or, List.getLast?_concat] at same
  exact Option.some.inj same

/-- Of a text with slashes after a blank all up to that blank is kept. -/
theorem normalScope_of_slashes (spelled : scope.toList = front ++ [blank] ++ (slashes ++ back))
    (isBlank : Text.isBlank blank = true) (nonempty : slashes ≠ [])
    (all : ∀ c ∈ slashes, c = '/') (blanks : ∀ c ∈ back, Text.isBlank c = true) :
    (normalScope scope).toList = (front ++ [blank]).dropWhile Text.isBlank := by
  have solid : ∀ c ∈ slashes, Text.isBlank c = false := by
    intro c member
    rw [all c member]
    rfl
  have rest : (slashes ++ back).dropWhile Text.isBlank = slashes ++ back := by
    refine Text.dropWhile_eq_self fun c first => ?_
    rw [List.head?_append_of_ne_nil _ nonempty] at first
    exact solid c (List.mem_of_mem_head? first)
  have opened : scope.toList.dropWhile Text.isBlank =
      (front ++ [blank]).dropWhile Text.isBlank ++ slashes ++ back := by
    rw [spelled, List.dropWhile_append, rest, List.append_assoc]
    split
    · rename_i empty
      rw [List.isEmpty_iff.mp empty, List.nil_append]
    · rfl
  have trimmed : Text.trimChars scope.toList =
      (front ++ [blank]).dropWhile Text.isBlank ++ slashes := by
    rw [Text.trimChars, opened, Text.dropEnd_append blanks]
    refine Text.dropEnd_eq_self fun c last => ?_
    rw [List.getLast?_append_of_ne_nil _ nonempty] at last
    exact solid c (List.mem_of_getLast? last)
  rw [toList_normalScope, trimmed, Text.dropEnd_append fun c member => beq_iff_eq.mpr (all c member)]
  refine Text.dropEnd_eq_self fun c last => ?_
  rw [last_dropWhile_concat last, beq_eq_false_iff_ne]
  rintro rfl
  exact absurd isBlank (by decide)

theorem endsInBlank_iff (stored : normalScope scope ≠ "") :
    EndsInBlank (normalScope scope) ↔ SlashesAfterBlank scope := by
  constructor
  · intro ends
    obtain ⟨front, slashes, back, whole, all, blanks, some⟩ := normalScope_split scope
    obtain ⟨blank, last, isBlank⟩ := ends
    obtain ⟨start, concat⟩ := List.getLast?_eq_some_iff.mp last
    refine ⟨front ++ start, blank, slashes, back, ?_, isBlank, some ⟨blank, last, isBlank⟩, all,
      blanks⟩
    rw [whole, concat]
    simp
  · rintro ⟨front, blank, slashes, back, spelled, isBlank, nonempty, all, blanks⟩
    have kept := normalScope_of_slashes spelled isBlank nonempty all blanks
    have some : (normalScope scope).toList.getLast? ≠ none := by simpa using stored
    obtain ⟨c, last⟩ := Option.ne_none_iff_exists'.mp some
    have same : c = blank := last_dropWhile_concat (kept ▸ last)
    exact ⟨c, last, same ▸ isBlank⟩

/-! ### Entered again -/

theorem normalScope_eq_self_iff (first : ∀ c ∈ scope.toList.head?, Text.isBlank c = false)
    (last : ∀ c ∈ scope.toList.getLast?, c ≠ '/') :
    normalScope scope = scope ↔ ¬ EndsInBlank scope := by
  constructor
  · intro same ends
    obtain ⟨front, slashes, back, whole, _, _, some⟩ := normalScope_split scope
    rw [same] at whole some
    have lengths := congrArg List.length whole
    simp only [List.length_append] at lengths
    have none : slashes.length = 0 := by omega
    exact some ends (List.eq_nil_of_length_eq_zero none)
  · intro solid
    have kept : Text.trimChars scope.toList = scope.toList := by
      rw [Text.trimChars, Text.dropWhile_eq_self first]
      refine Text.dropEnd_eq_self fun c member => ?_
      exact Bool.eq_false_iff.mpr fun blank => solid ⟨c, member, blank⟩
    rw [normalScope, kept, Text.dropEnd_eq_self, String.ofList_toList]
    intro c member
    exact beq_eq_false_iff_ne.mpr (last c member)

theorem foldl_distinct {kept entries : List String} (once : (kept ++ entries).Nodup) :
    entries.foldl (fun kept entry => if entry ∈ kept then kept else kept ++ [entry]) kept =
      kept ++ entries := by
  induction entries generalizing kept with
  | nil => exact (List.append_nil kept).symm
  | cons entry rest ih =>
      have new : entry ∉ kept := fun member =>
        (List.nodup_append.mp once).2.2 entry member entry (List.mem_cons_self ..) rfl
      rw [List.append_cons] at once ⊢
      rw [List.foldl_cons, if_neg new, ih once]

theorem nodup_distinct (entries : List String) : (distinct entries).Nodup := by
  unfold distinct
  apply List.foldlRecOn (motive := List.Nodup) entries _ List.nodup_nil
  intro kept once entry _
  split
  · exact once
  · rename_i new
    refine List.nodup_append.mpr ⟨once, by simp, fun other member single inSingle same => ?_⟩
    rw [same, List.mem_singleton.mp inSingle] at member
    exact new member

theorem distinct_distinct (entries : List String) : distinct (distinct entries) = distinct entries :=
  foldl_distinct (nodup_distinct entries)

theorem make_eq_ok_iff {wrappers : List String} {policy : Policy} :
    make scope wrappers = .ok policy ↔
      normalScope scope ≠ "" ∧ policy = ⟨normalScope scope, distinct wrappers⟩ := by
  simp only [make]
  split
  · rename_i none
    simp [none]
  · rename_i some
    simp [some, eq_comm]

/-- The scope of a policy is not empty, has no blank in front and no slash at its end. It has a
blank at its end, and becomes another scope when it is entered again, exactly when the scope that
was entered has a blank before its last slashes. -/
theorem make_scope_settled_iff {wrappers : List String} {policy : Policy}
    (made : make scope wrappers = .ok policy) :
    policy.scope ≠ "" ∧ (∀ c ∈ policy.scope.toList.head?, Text.isBlank c = false) ∧
      (∀ c ∈ policy.scope.toList.getLast?, c ≠ '/') ∧
      (EndsInBlank policy.scope ↔ SlashesAfterBlank scope) ∧
      (make policy.scope policy.wrappers = .ok policy ↔ ¬ SlashesAfterBlank scope) := by
  obtain ⟨stored, rfl⟩ := make_eq_ok_iff.mp made
  have first : ∀ c ∈ (normalScope scope).toList.head?, Text.isBlank c = false :=
    fun _ => first_normalScope
  have last : ∀ c ∈ (normalScope scope).toList.getLast?, c ≠ '/' :=
    fun _ => last_normalScope
  have ends := endsInBlank_iff stored
  have again := normalScope_eq_self_iff first last
  refine ⟨stored, first, last, ends, ?_⟩
  rw [← ends, ← again, make_eq_ok_iff, distinct_distinct, mk.injEq]
  constructor
  · rintro ⟨_, same, _⟩
    exact same.symm
  · intro same
    exact ⟨same.symm ▸ stored, same.symm, rfl⟩

theorem make_scope_settled_path :
    make " svc/db// " ["f", "g", "f"] = .ok ⟨"svc/db", ["f", "g"]⟩ ∧
      "svc/db" ≠ "" ∧ (∀ c ∈ "svc/db".toList.head?, Text.isBlank c = false) ∧
      (∀ c ∈ "svc/db".toList.getLast?, c ≠ '/') ∧
      (EndsInBlank "svc/db" ↔ SlashesAfterBlank " svc/db// ") ∧
      (make "svc/db" ["f", "g"] = .ok ⟨"svc/db", ["f", "g"]⟩ ↔
        ¬ SlashesAfterBlank " svc/db// ") :=
  have made : make " svc/db// " ["f", "g", "f"] = .ok ⟨"svc/db", ["f", "g"]⟩ := by decide
  ⟨made, make_scope_settled_iff made⟩

/-- A scope whose stored form ends in a blank holds no unit below it, and gives another policy when
it is entered again. -/
theorem blank_left_at_end :
    make "svc /" [] = .ok ⟨"svc ", []⟩ ∧ EndsInBlank "svc " ∧
      make "svc " [] = .ok ⟨"svc", []⟩ ∧
      (⟨"svc ", []⟩ : Policy).inScope "svc/db" = false ∧
      (⟨"svc", []⟩ : Policy).inScope "svc/db" = true :=
  ⟨by decide, ⟨' ', rfl, rfl⟩, by decide, by decide, by decide⟩

end Policy

end ErrorWrapping
