import Std.Data.HashMap

/-
Catalogs.

A catalog numbers the items entered into it in order of first entry; an item that is entered again
keeps its number. Items are kept by number and numbers by item, so that either is found from the
other, and the two always say the same.
-/

namespace ErrorWrapping

structure CatalogEntries (α : Type) [DecidableEq α] [Hashable α] where
  items : Array α
  numbers : Std.HashMap α Nat

namespace CatalogEntries

variable {α : Type} [DecidableEq α] [Hashable α]

def empty : CatalogEntries α := ⟨#[], ∅⟩

/-- The number of an item, which is the next one if the item has none yet. -/
def enter (entries : CatalogEntries α) (item : α) : Nat × CatalogEntries α :=
  match entries.numbers[item]? with
  | some number => (number, entries)
  | none =>
    let number := entries.items.size
    (number, ⟨entries.items.push item, entries.numbers.insert item number⟩)

/-- An item has a number exactly when it stands at that number. -/
def Inverse (entries : CatalogEntries α) : Prop :=
  ∀ (item : α) (number : Nat),
    entries.numbers[item]? = some number ↔ entries.items[number]? = some item

theorem inverse_empty : (empty : CatalogEntries α).Inverse := by
  simp [Inverse, empty]

theorem Inverse.enter {entries : CatalogEntries α} (inverse : entries.Inverse) (item : α) :
    (entries.enter item).2.Inverse := by
  intro other number
  cases known : entries.numbers[item]? with
  | some existing =>
    simp only [CatalogEntries.enter, known]
    exact inverse other number
  | none =>
    have fresh : entries.items[number]? ≠ some item := fun found => by
      rw [(inverse item number).mpr found] at known
      cases known
    simp only [CatalogEntries.enter, known, Std.HashMap.getElem?_insert, Array.getElem?_push,
      beq_iff_eq]
    by_cases same : item = other
    · subst same
      by_cases next : number = entries.items.size
      · simp [next]
      · simp [next, Ne.symm next, fresh]
    · by_cases next : number = entries.items.size
      · simp [next, same, inverse other entries.items.size]
      · simp [next, same, inverse other number]

end CatalogEntries

structure Catalog (α : Type) [DecidableEq α] [Hashable α] extends CatalogEntries α where
  inverse : toCatalogEntries.Inverse

namespace Catalog

variable {α : Type} [DecidableEq α] [Hashable α]

def empty : Catalog α := ⟨.empty, CatalogEntries.inverse_empty⟩

def size (catalog : Catalog α) : Nat := catalog.items.size

def number? (catalog : Catalog α) (item : α) : Option Nat := catalog.numbers[item]?

def item? (catalog : Catalog α) (number : Nat) : Option α := catalog.items[number]?

def enter (catalog : Catalog α) (item : α) : Nat × Catalog α :=
  let entered := catalog.toCatalogEntries.enter item
  (entered.1, ⟨entered.2, catalog.inverse.enter item⟩)

end Catalog

end ErrorWrapping
