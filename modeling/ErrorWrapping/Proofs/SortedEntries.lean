import ErrorWrapping.Sorted
import Mathlib.Data.List.Nodup

/-
What is found among entries in order.

The two bounds of a search stay on either side of the position that is sought, so that is where
they meet. In an increasing array this is the first entry that is not below a number: the number
itself, or the entry after the last one below it.
-/

namespace ErrorWrapping.Sorted

/-! ### Repeats -/

section

variable {α : Type} [DecidableEq α] {entry : α} {entries : List α}

theorem mem_dropRepeats (entries : List α) : entry ∈ dropRepeats entries ↔ entry ∈ entries := by
  fun_induction dropRepeats entries with
  | case1 second rest ih => simp [ih]
  | case2 first second rest differs ih => simp [ih]
  | case3 entries => exact Iff.rfl

theorem dropRepeats_eq_self (once : entries.Nodup) : dropRepeats entries = entries := by
  fun_induction dropRepeats entries with
  | case1 second rest ih => exact absurd (List.mem_cons_self ..) (List.nodup_cons.mp once).1
  | case2 first second rest differs ih => rw [ih (List.nodup_cons.mp once).2]
  | case3 entries => rfl

/-- Where equal entries stand together, each entry is left once. -/
theorem nodup_dropRepeats {before : α → α → Prop} (sorted : entries.Pairwise before)
    (antisymm : ∀ left right, before left right → before right left → left = right) :
    (dropRepeats entries).Nodup := by
  fun_induction dropRepeats entries with
  | case1 second rest ih => exact ih (List.pairwise_cons.mp sorted).2
  | case2 first second rest differs ih =>
      obtain ⟨ahead, later⟩ := List.pairwise_cons.mp sorted
      refine List.nodup_cons.mpr ⟨fun again => ?_, ih later⟩
      rcases List.mem_cons.mp ((mem_dropRepeats _).mp again) with same | inRest
      · exact differs same
      · -- The second entry would stand between two equal ones.
        exact differs (antisymm _ _ (ahead second List.mem_cons_self)
          ((List.pairwise_cons.mp later).1 first inRest))
  | case3 entries short =>
      match entries, short with
      | [], _ => exact List.nodup_nil
      | [_], _ => exact List.nodup_singleton _
      | first :: second :: rest, short => exact absurd rfl (short first second rest)

end

/-! ### Halving -/

section

variable {α : Type} {test : α → Bool} {entries : Array α}

/-- No entry that passes the test stands after one that fails it. -/
def Splits (test : α → Bool) (entries : Array α) : Prop :=
  ∀ (one other : Nat) (_ : one < other) (_ : other < entries.size),
    test entries[other] = true → test entries[one] = true

/-- The entries before the lower bound pass the test, those from the upper bound on fail it. -/
theorem partitionWithin_spec (splits : Splits test entries) {low high : Nat}
    (bound : high ≤ entries.size) (inside : low ≤ entries.size)
    (pass : ∀ (index : Nat) (_ : index < entries.size), index < low → test entries[index] = true)
    (fail : ∀ (index : Nat) (_ : index < entries.size), high ≤ index →
      ¬ test entries[index] = true) :
    partitionWithin test entries low high bound ≤ entries.size ∧
      ∀ (index : Nat) (_ : index < entries.size),
        index < partitionWithin test entries low high bound ↔ test entries[index] = true := by
  fun_induction partitionWithin test entries low high bound with
  | case1 low high bound some middle holds ih =>
      refine ih (by omega) (fun index small below => ?_) fail
      rcases Nat.lt_or_eq_of_le (Nat.le_of_lt_succ below) with before | rfl
      · exact splits index middle before _ holds
      · exact holds
  | case2 low high bound some middle fails ih =>
      refine ih inside pass fun index small beyond holds => ?_
      rcases Nat.lt_or_eq_of_le beyond with after | rfl
      · exact fails (splits middle index after small holds)
      · exact fails holds
  | case3 low high bound none =>
      refine ⟨inside, fun index small => ⟨pass index small, fun holds => ?_⟩⟩
      by_contra beyond
      exact fail index small (by omega) holds

theorem partitionPoint_le_size (splits : Splits test entries) :
    partitionPoint test entries ≤ entries.size :=
  (partitionWithin_spec splits _ (Nat.zero_le _) (fun _ _ impossible => nomatch impossible)
    fun _ small beyond => absurd small (Nat.not_lt.mpr beyond)).1

theorem lt_partitionPoint_iff (splits : Splits test entries) {index : Nat}
    (small : index < entries.size) :
    index < partitionPoint test entries ↔ test entries[index] = true :=
  (partitionWithin_spec splits _ (Nat.zero_le _) (fun _ _ impossible => nomatch impossible)
    fun _ small beyond => absurd small (Nat.not_lt.mpr beyond)).2 index small

end

/-! ### Increasing numbers -/

/-- A number that is not below an entry, but below the next one, is found at the entry or after
it. -/
theorem search_cases {entries : Array Nat} {index entry number : Nat}
    (increasing : entries.toList.Pairwise (· < ·)) (found : entries[index]? = some entry)
    (from_ : entry ≤ number)
    (upTo : ∀ next, entries[index + 1]? = some next → number < next) :
    search entries number = .ok index ∨ search entries number = .error (index + 1) := by
  obtain ⟨inside, rfl⟩ := Array.getElem?_eq_some_iff.mp found
  have below : ∀ {one other : Nat} (_ : one < other) (small : other < entries.size),
      entries[one] < entries[other] :=
    fun less small =>
      List.pairwise_iff_getElem.mp increasing _ _ (Nat.lt_trans less small) small less
  have splits : Splits (fun entry => decide (entry < number)) entries :=
    fun one other less small holds =>
      decide_eq_true (Nat.lt_trans (below less small) (of_decide_eq_true holds))
  have within := partitionPoint_le_size splits
  have before : ∀ {index : Nat} (small : index < entries.size),
      index < partitionPoint (fun entry => decide (entry < number)) entries ↔
        entries[index] < number :=
    fun small => (lt_partitionPoint_iff splits small).trans decide_eq_true_iff
  unfold search
  generalize partitionPoint (fun entry => decide (entry < number)) entries = point
    at within before ⊢
  rcases Nat.lt_or_eq_of_le from_ with less | same
  · right
    have reached := (before inside).mpr less
    have stops : ¬ index + 1 < point := fun further => by
      have small : index + 1 < entries.size := by omega
      have next := upTo entries[index + 1] (Array.getElem?_eq_getElem small)
      exact absurd ((before small).mp further) (Nat.not_lt_of_lt next)
    obtain rfl : point = index + 1 := by omega
    exact if_neg fun here => Nat.lt_irrefl number (upTo number here)
  · left
    have reached : ¬ point < index := fun earlier => by
      have small : point < entries.size := by omega
      exact Nat.lt_irrefl point ((before small).mpr (by rw [← same]; exact below earlier inside))
    have stops : ¬ index < point := fun further =>
      Nat.lt_irrefl number (same ▸ (before inside).mp further)
    obtain rfl : point = index := by omega
    exact if_pos (by rw [← same]; exact found)

end ErrorWrapping.Sorted
