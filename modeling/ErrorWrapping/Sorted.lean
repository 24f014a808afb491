/-
Entries in order.

Equal entries of a list in order stand next to each other, so leaving out repeats leaves each of
them once. In an array in order a position is found by halving the part that it can lie in.
-/

namespace ErrorWrapping.Sorted

def dropRepeats {α : Type} [DecidableEq α] : List α → List α
  | first :: second :: rest =>
    if first = second then dropRepeats (second :: rest)
    else first :: dropRepeats (second :: rest)
  | entries => entries

def partitionWithin {α : Type} (test : α → Bool) (entries : Array α) (low high : Nat)
    (bound : high ≤ entries.size) : Nat :=
  if _ : low < high then
    let middle := low + (high - low) / 2
    if test entries[middle] then partitionWithin test entries (middle + 1) high bound
    else partitionWithin test entries low middle (by omega)
  else low
termination_by high - low

/-- The position up to which a test holds, if it holds of no entry after one that fails it. -/
def partitionPoint {α : Type} (test : α → Bool) (entries : Array α) : Nat :=
  partitionWithin test entries 0 entries.size (Nat.le_refl _)

/-- The position of a number, or else the position at which it would have to be put in. -/
def search (entries : Array Nat) (number : Nat) : Except Nat Nat :=
  let position := partitionPoint (· < number) entries
  if entries[position]? = some number then .ok position else .error position

end ErrorWrapping.Sorted
