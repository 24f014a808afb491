/-
Spans.

Offsets are global: every file of a run owns a range of offsets of its own, so a span locates a
place without naming a file. Offset zero belongs to no file, and the span from zero to zero
stands for a missing position.
-/

namespace ErrorWrapping

structure Span where
  start : Nat
  stop : Nat
  deriving DecidableEq, Inhabited

namespace Span

def dummy : Span := ⟨0, 0⟩

def point (offset : Nat) : Span := ⟨offset, offset⟩

/-- The number of bytes; there is none for a span that ends before it starts. -/
def length? (span : Span) : Option Nat :=
  if span.start ≤ span.stop then some (span.stop - span.start) else none

def isEmpty (span : Span) : Bool :=
  span.start == span.stop

def isDummy (span : Span) : Bool :=
  span.start == 0 && span.stop == 0

def contains (outer inner : Span) : Bool :=
  outer.start ≤ inner.start && inner.stop ≤ outer.stop

/-- The least span that covers both. -/
def merge (left right : Span) : Span :=
  ⟨min left.start right.start, max left.stop right.stop⟩

/-- By start, then by end. -/
def cmp (left right : Span) : Ordering :=
  (compare left.start right.start).then (compare left.stop right.stop)

def describe (span : Span) : String :=
  toString span.start ++ ".." ++ toString span.stop

end Span

end ErrorWrapping
