import ErrorWrapping.Catalog
import Mathlib.Data.List.Permutation

/-
Histories of catalogs.

Entering an item that has a number changes nothing, and any other item is put after all that are
there. So a catalog holds the items of its history in order of first entry, each once, and whatever
stands at a number stays there. An item has one number in all of the history, and no two items
share one.
-/

namespace ErrorWrapping

theorem eraseDups_eq_self {α : Type} [DecidableEq α] {items : List α}
    (distinct : items.Nodup) : items.eraseDups = items := by
  induction items with
  | nil => rfl
  | cons item rest ih =>
      obtain ⟨fresh, distinctRest⟩ := List.nodup_cons.mp distinct
      have kept : rest.filter (fun other => !other == item) = rest := by
        rw [List.filter_eq_self]
        intro other member
        have differs : other ≠ item := fun same => fresh (same ▸ member)
        simp [differs]
      rw [List.eraseDups_cons, kept, ih distinctRest]

namespace Catalog

variable {α : Type} [DecidableEq α] [Hashable α] {catalog : Catalog α} {item other : α}
  {number : Nat}

theorem number?_eq_some_iff : catalog.number? item = some number ↔ catalog.item? number = some item :=
  catalog.inverse item number

theorem ext_entries {left right : Catalog α}
    (same : left.toCatalogEntries = right.toCatalogEntries) : left = right := by
  cases left
  cases right
  cases same
  rfl

/-- One item has one number, and at one number stands one item. -/
theorem number_eq_iff {also : Nat} (found : catalog.item? number = some item)
    (foundAlso : catalog.item? also = some other) : number = also ↔ item = other := by
  constructor
  · rintro rfl
    exact Option.some.inj (found.symm.trans foundAlso)
  · rintro rfl
    exact Option.some.inj
      ((number?_eq_some_iff.mpr found).symm.trans (number?_eq_some_iff.mpr foundAlso))

/-! ### One entry -/

theorem enter_of_item? (found : catalog.item? number = some item) :
    catalog.enter item = (number, catalog) := by
  have known : catalog.numbers[item]? = some number := number?_eq_some_iff.mpr found
  have entered : catalog.toCatalogEntries.enter item = (number, catalog.toCatalogEntries) := by
    simp only [CatalogEntries.enter, known]
  refine Prod.ext ?_ (ext_entries ?_)
  · change (catalog.toCatalogEntries.enter item).1 = number
    rw [entered]
  · change (catalog.toCatalogEntries.enter item).2 = catalog.toCatalogEntries
    rw [entered]

theorem enter_of_fresh (fresh : ∀ number, catalog.item? number ≠ some item) :
    (catalog.enter item).1 = catalog.size ∧
      (catalog.enter item).2.items = catalog.items.push item := by
  have unknown : catalog.numbers[item]? = none := by
    cases known : catalog.numbers[item]? with
    | none => rfl
    | some number => exact absurd ((catalog.inverse item number).mp known) (fresh number)
  simp only [enter, CatalogEntries.enter, unknown]
  exact ⟨rfl, trivial⟩

theorem enter_cases (catalog : Catalog α) (item : α) :
    (∃ number, catalog.item? number = some item ∧ catalog.enter item = (number, catalog)) ∨
      (∀ number, catalog.item? number ≠ some item) ∧
        (catalog.enter item).1 = catalog.size ∧
        (catalog.enter item).2.items = catalog.items.push item := by
  by_cases known : ∃ number, catalog.item? number = some item
  · obtain ⟨number, found⟩ := known
    exact Or.inl ⟨number, found, enter_of_item? found⟩
  · have fresh := not_exists.mp known
    exact Or.inr ⟨fresh, enter_of_fresh fresh⟩

theorem item?_enter (catalog : Catalog α) (item : α) :
    (catalog.enter item).2.item? (catalog.enter item).1 = some item := by
  obtain ⟨number, found, entered⟩ | ⟨_, last, items⟩ := enter_cases catalog item
  · rw [entered]
    exact found
  · rw [item?, items, last]
    exact Array.getElem?_push_size

theorem item?_enter_of_some (found : catalog.item? number = some other) (item : α) :
    (catalog.enter item).2.item? number = some other := by
  obtain ⟨_, _, entered⟩ | ⟨_, _, items⟩ := enter_cases catalog item
  · rw [entered]
    exact found
  · have inside : number < catalog.items.size := (Array.getElem?_eq_some_iff.mp found).1
    rw [item?, items, Array.getElem?_push, if_neg (Nat.ne_of_lt inside)]
    exact found

/-! ### The items in order -/

def toList (catalog : Catalog α) : List α := catalog.items.toList

theorem getElem?_toList (catalog : Catalog α) (number : Nat) :
    catalog.toList[number]? = catalog.item? number :=
  Array.getElem?_toList ..

theorem length_toList (catalog : Catalog α) : catalog.toList.length = catalog.size :=
  Array.length_toList

theorem mem_toList_iff : item ∈ catalog.toList ↔ ∃ number, catalog.item? number = some item := by
  simp only [List.mem_iff_getElem?, getElem?_toList]

theorem nodup_toList (catalog : Catalog α) : catalog.toList.Nodup := by
  rw [List.Nodup, List.pairwise_iff_getElem]
  intro first second inside alsoInside before same
  have found : catalog.item? first = some catalog.toList[first] := by
    rw [← getElem?_toList, List.getElem?_eq_getElem inside]
  have again : catalog.item? second = some catalog.toList[first] := by
    rw [← getElem?_toList, List.getElem?_eq_getElem alsoInside, same]
  exact Nat.ne_of_lt before ((number_eq_iff found again).mpr rfl)

theorem enter_of_mem (member : item ∈ catalog.toList) :
    (catalog.enter item).2 = catalog := by
  obtain ⟨number, found⟩ := mem_toList_iff.mp member
  rw [enter_of_item? found]

theorem enter_of_not_mem (fresh : item ∉ catalog.toList) :
    (catalog.enter item).1 = catalog.toList.length ∧
      (catalog.enter item).2.toList = catalog.toList ++ [item] := by
  obtain ⟨last, items⟩ := enter_of_fresh (not_exists.mp (mt mem_toList_iff.mpr fresh))
  exact ⟨last.trans catalog.length_toList.symm, by rw [toList, items, Array.toList_push]; rfl⟩

/-- What an item does to the list of those entered first. -/
theorem eraseDups_toList_enter (catalog : Catalog α) (item : α) (rest : List α) :
    ((catalog.enter item).2.toList ++ rest).eraseDups =
      (catalog.toList ++ item :: rest).eraseDups := by
  by_cases known : item ∈ catalog.toList
  · have skipped : (item :: rest).removeAll catalog.toList = rest.removeAll catalog.toList := by
      simp [List.cons_removeAll, known]
    rw [enter_of_mem known, List.eraseDups_append, List.eraseDups_append, skipped]
  · rw [(enter_of_not_mem known).2, List.append_assoc]
    rfl

theorem size_le_length_eraseDups (catalog : Catalog α) (items : List α) :
    catalog.size ≤ (catalog.toList ++ items).eraseDups.length := by
  rw [List.eraseDups_append, eraseDups_eq_self catalog.nodup_toList, List.length_append,
    length_toList]
  exact Nat.le_add_right _ _

/-! ### Histories -/

/-- Enters items one after the other. -/
def enterAll (catalog : Catalog α) : List α → List Nat × Catalog α
  | [] => ([], catalog)
  | item :: rest =>
    let (number, next) := catalog.enter item
    let (numbers, last) := next.enterAll rest
    (number :: numbers, last)

theorem enterAll_cons (catalog : Catalog α) (item : α) (rest : List α) :
    catalog.enterAll (item :: rest) =
      ((catalog.enter item).1 :: ((catalog.enter item).2.enterAll rest).1,
        ((catalog.enter item).2.enterAll rest).2) := rfl

theorem enterAll_append (catalog : Catalog α) (items further : List α) :
    catalog.enterAll (items ++ further) =
      ((catalog.enterAll items).1 ++ ((catalog.enterAll items).2.enterAll further).1,
        ((catalog.enterAll items).2.enterAll further).2) := by
  induction items generalizing catalog with
  | nil => rfl
  | cons item rest ih =>
      rw [List.cons_append, enterAll_cons, enterAll_cons, ih]
      rfl

theorem item?_enterAll_of_some (found : catalog.item? number = some other) (items : List α) :
    (catalog.enterAll items).2.item? number = some other := by
  induction items generalizing catalog with
  | nil => exact found
  | cons item rest ih => exact ih (item?_enter_of_some found item)

/-- Every item stands at the number that it was given. -/
theorem item?_enterAll (catalog : Catalog α) (items : List α) :
    List.Forall₂ (fun item number => (catalog.enterAll items).2.item? number = some item) items
      (catalog.enterAll items).1 := by
  induction items generalizing catalog with
  | nil => exact .nil
  | cons item rest ih =>
      exact .cons (item?_enterAll_of_some (catalog.item?_enter item) rest) (ih _)

/-- Items are kept in order of first entry, each once. -/
theorem toList_enterAll (catalog : Catalog α) (items : List α) :
    (catalog.enterAll items).2.toList = (catalog.toList ++ items).eraseDups := by
  induction items generalizing catalog with
  | nil =>
      rw [List.append_nil, eraseDups_eq_self catalog.nodup_toList]
      rfl
  | cons item rest ih => rw [enterAll_cons, ih, eraseDups_toList_enter]

/-- An item that is new to a history gets the next number. -/
theorem getElem?_enterAll_of_fresh (catalog : Catalog α) {earlier : List α} {item : α}
    (fresh : item ∉ catalog.toList ++ earlier) (later : List α) :
    (catalog.enterAll (earlier ++ item :: later)).1[earlier.length]? =
      some (catalog.toList ++ earlier).eraseDups.length := by
  have length : (catalog.enterAll earlier).1.length = earlier.length :=
    (catalog.item?_enterAll earlier).length_eq.symm
  have unlisted : item ∉ (catalog.enterAll earlier).2.toList := by
    rw [toList_enterAll, List.mem_eraseDups]
    exact fresh
  rw [enterAll_append, enterAll_cons, ← length, List.getElem?_append_right (Nat.le_refl _),
    Nat.sub_self, List.getElem?_cons_zero, (enter_of_not_mem unlisted).1, toList_enterAll]

/-- A number that was given is one of as many as there are items. -/
theorem lt_of_mem_enterAll {items : List α} (member : number ∈ (catalog.enterAll items).1) :
    number < (catalog.toList ++ items).eraseDups.length := by
  obtain ⟨place, inside, rfl⟩ := List.mem_iff_getElem.mp member
  have placed := (catalog.item?_enterAll items).length_eq
  have found := List.Forall₂.get (catalog.item?_enterAll items) (placed ▸ inside) inside
  rw [← toList_enterAll, length_toList]
  exact (Array.getElem?_eq_some_iff.mp found).1

/-- What is promised of the numbers that the items of a history were given, in their form as
handles: `known` was numbered before, and `shown` is what is found at a handle at a later time. -/
structure Numbers {κ : Type} (handle : Nat → κ) (known items : List α) (handles : List κ)
    (shown : κ → Option α) : Prop where
  shows : List.Forall₂ (fun item number => shown number = some item) items handles
  same_iff : ∀ entry ∈ items.zip handles, ∀ other ∈ items.zip handles,
    entry.2 = other.2 ↔ entry.1 = other.1
  next : ∀ (earlier : List α) (item : α) (later : List α), items = earlier ++ item :: later →
    item ∉ known ++ earlier →
    handles[earlier.length]? = some (handle (known ++ earlier).eraseDups.length)
  stays : ∀ (number : Nat) (item : α), known[number]? = some item →
    shown (handle number) = some item ∧
      ∀ entry ∈ items.zip handles, entry.2 = handle number ↔ entry.1 = item

/-- An item and its handle, found by the number in the catalog after the history. -/
theorem exists_number_of_entry {κ : Type} {handle : Nat → κ} {items : List α} {entry : α × κ}
    (member : entry ∈ items.zip ((catalog.enterAll items).1.map handle)) :
    ∃ number, entry.2 = handle number ∧
      (catalog.enterAll items).2.item? number = some entry.1 := by
  rw [List.zip_map_right] at member
  obtain ⟨⟨item, number⟩, paired, rfl⟩ := List.mem_map.mp member
  exact ⟨number, rfl, (List.forall₂_iff_zip.mp (catalog.item?_enterAll items)).2 paired⟩

/-- The numbers of a history keep what is promised, as long as handles are told apart like numbers
and what stands at a number stays at its handle. -/
theorem numbers_enterAll {κ : Type} {handle : Nat → κ} (told : Function.Injective handle)
    {shown : κ → Option α} (catalog : Catalog α) (items : List α)
    (stays : ∀ (number : Nat) (item : α),
      (catalog.enterAll items).2.item? number = some item → shown (handle number) = some item) :
    Numbers handle catalog.toList items ((catalog.enterAll items).1.map handle) shown := by
  refine ⟨?_, fun entry member other also => ?_, fun earlier item later split fresh => ?_,
    fun number item listed => ?_⟩
  · rw [List.forall₂_map_right_iff]
    exact (catalog.item?_enterAll items).imp fun item number found => stays number item found
  · obtain ⟨number, given, found⟩ := exists_number_of_entry member
    obtain ⟨alsoNumber, alsoGiven, foundAlso⟩ := exists_number_of_entry also
    rw [given, alsoGiven, told.eq_iff]
    exact number_eq_iff found foundAlso
  · rw [split, List.getElem?_map, getElem?_enterAll_of_fresh catalog fresh]
    rfl
  · rw [getElem?_toList] at listed
    have known := item?_enterAll_of_some listed items
    refine ⟨stays number item known, fun entry member => ?_⟩
    obtain ⟨given, same, found⟩ := exists_number_of_entry member
    rw [same, told.eq_iff]
    exact number_eq_iff found known

end Catalog

end ErrorWrapping
