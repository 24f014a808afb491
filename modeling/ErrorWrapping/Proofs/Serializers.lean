import ErrorWrapping.Dump.Decode
import ErrorWrapping.Json.Record
import ErrorWrapping.Proofs.JsonReading
import Mathlib.Data.List.Forall2
import Mathlib.Data.Option.Basic

/-
Serializers that can be relied on.

A decoder need not keep the order of the members of an object, so it gives a value back up to that
order. A reader that looks members up by name cannot tell. The present writer, with the present
reader as its decoder, gives every value back as it was.
-/

namespace ErrorWrapping

namespace Json

/-- The same value, but for the order of members. -/
inductive Alike : Json → Json → Prop
  | null : Alike .null .null
  | bool (value : Bool) : Alike (.bool value) (.bool value)
  | number (value : Number) : Alike (.number value) (.number value)
  | string (text : String) : Alike (.string text) (.string text)
  | array {items others : List Json} (each : List.Forall₂ Alike items others) :
      Alike (.array items) (.array others)
  | object {members others : List (String × Json)}
      (each : ∀ name, Option.Rel Alike (members.lookup name) (others.lookup name)) :
      Alike (.object members) (.object others)

/-- What is relied on of a serializer and a decoder of JSON: a value is written in full, its
strings are escaped so that no control character is left, and its text is decoded to it. Decoders
go as deep into arrays and objects as the decoder of dumps does. -/
structure Serializer.Faithful (serializer : Serializer) (decode? : String → Option Json) : Prop where
  whole : ∀ value, Legible Dump.nestingLimit value → (serializer.compact value).isWhole = true
  escapes : ∀ value, Legible Dump.nestingLimit value →
    Printed (serializer.compact value).text.toList
  decodes : ∀ value, Legible Dump.nestingLimit value →
    ∃ read, decode? (serializer.compact value).text = some read ∧ Alike value read

/-! ### Values up to the order of members -/

theorem Legible.alike {depth : Nat} {value : Json} (legible : Legible depth value) :
    Alike value value := by
  induction legible with
  | null => exact .null
  | bool value => exact .bool value
  | natural value => exact .number _
  | string text => exact .string text
  | array all ih => exact .array (List.forall₂_same.mpr ih)
  | @object depth members once all ih =>
      refine .object fun name => ?_
      cases found : members.lookup name with
      | none => exact .none
      | some value =>
          obtain ⟨before, after, rfl, _⟩ := List.lookup_eq_some_iff.mp found
          exact .some (ih _ (List.mem_append_right _ (List.mem_cons_self ..)))

section

variable {value read : Json} (alike : Alike value read)

include alike

theorem Alike.member? (name : String) : Option.Rel Alike (value.member? name) (read.member? name) := by
  cases alike with
  | object each => exact each name
  | _ => exact .none

theorem Alike.string? : value.string? = read.string? := by
  cases alike <;> rfl

theorem Alike.natural? : value.natural? = read.natural? := by
  cases alike <;> rfl

theorem Alike.list {α : Type} {reader : Json → Option α}
    (same : ∀ item other, Alike item other → reader item = reader other) :
    Json.list reader value = Json.list reader read := by
  cases alike with
  | array each =>
      induction each with
      | nil => rfl
      | cons first _ ih =>
          simp only [Json.list, List.mapM_cons] at ih ⊢
          rw [same _ _ first, ih]
  | _ => rfl

/-- A member is read alike from both values. -/
theorem Alike.required {α : Type} {reader : Json → Option α}
    (same : ∀ item other, Alike item other → reader item = reader other) (name : String) :
    Json.required reader (value.member? name) = Json.required reader (read.member? name) := by
  have member := alike.member? name
  generalize value.member? name = field, read.member? name = other at member
  cases member with
  | none => rfl
  | some alike => exact same _ _ alike

end

end Json

end ErrorWrapping
