import ErrorWrapping.Dump.Basic
import ErrorWrapping.Text.Blank
import ErrorWrapping.Types
import ErrorWrapping.Warning
import Std.Data.HashMap

/-
Types by name.

A name is resolved against the declarations of the dump, then as a pointer, then as one of the
spellings that need no declaration. Each name is resolved once and remembered. A declaration
that is met again while it is being resolved counts as invalid there, and only there.
-/

namespace ErrorWrapping.Dump

/-- The types entered so far, the names resolved so far, and what was odd about them. -/
structure TypeNames where
  types : TypeTable
  known : Std.HashMap String TypeId
  warnings : List Warning

namespace TypeNames

def initial : TypeNames := ⟨.initial, ∅, []⟩

def enter (names : TypeNames) (form : TypeForm) : TypeId × TypeNames :=
  let (id, types) := names.types.enter form
  (id, { names with types })

def warn (names : TypeNames) (warning : Warning) : TypeNames :=
  { names with warnings := warning :: names.warnings }

def remember (name : String) (result : TypeId × TypeNames) : TypeId × TypeNames :=
  (result.1, { result.2 with known := result.2.known.insert name result.1 })

end TypeNames

/-- Types that are there without a declaration. -/
def predeclared : List String :=
  ["bool", "string", "byte", "rune", "int", "int8", "int16", "int32", "int64", "uint", "uint8",
    "uint16", "uint32", "uint64", "uintptr", "float32", "float64", "complex64", "complex128"]

/-- Beginnings of the spellings of composite types that the checker does not look into. -/
def compositeStarts : List String :=
  ["[]", "[", "map[", "chan ", "<-chan ", "func("]

def startsWith (start text : String) : Bool :=
  start.toList.isPrefixOf text.toList

def resolveUndeclared (name : String) (names : TypeNames) : TypeId × TypeNames :=
  if name = "any" ∨ name = "interface\x7b\x7d" then names.enter (.interface [])
  else if predeclared.contains name || compositeStarts.any (startsWith · name) then
    names.enter (.basic name)
  else (.invalid, names.warn (.unknownType name))

/-- The declaration of a name; the last one counts. -/
def declaration? (decls : List TypeDecl) (name : String) : Option TypeDecl :=
  decls.reverse.find? (·.name == name)

def idle (decls : List TypeDecl) (busy : List String) : Nat :=
  (decls.filter fun decl => !busy.contains decl.name).length

theorem idle_cons_le (decls : List TypeDecl) (busy : List String) (name : String) :
    idle decls (name :: busy) ≤ idle decls busy := by
  simp only [idle, ← List.countP_eq_length_filter]
  apply List.countP_mono_left
  intro decl _ free
  simp only [List.contains_cons, Bool.not_or, Bool.and_eq_true] at free
  exact free.2

theorem idle_cons_lt {decls : List TypeDecl} {busy : List String} {decl : TypeDecl}
    (member : decl ∈ decls) (free : decl.name ∉ busy) :
    idle decls (decl.name :: busy) < idle decls busy := by
  induction decls with
  | nil => cases member
  | cons head rest ih =>
    have bound := idle_cons_le rest busy decl.name
    simp only [idle, List.filter_cons, List.contains_cons] at ih bound ⊢
    by_cases same : head.name = decl.name
    · simp only [same, BEq.rfl, Bool.true_or, Bool.not_true, Bool.false_eq_true, if_false,
        List.contains_eq_mem, free, decide_false, Bool.not_false, if_true, List.length_cons]
        at bound ⊢
      omega
    · have inRest : decl ∈ rest := by
        rcases List.mem_cons.mp member with rfl | inRest
        · exact absurd rfl same
        · exact inRest
      have step := ih inRest
      have differs : (head.name == decl.name) = false := by simp [same]
      rw [differs, Bool.false_or]
      split
      · simp only [List.length_cons]
        omega
      · exact step

theorem declaration?_some {decls : List TypeDecl} {name : String} {decl : TypeDecl}
    (found : declaration? decls name = some decl) : decl ∈ decls ∧ decl.name = name := by
  constructor
  · exact List.mem_reverse.mp (List.mem_of_find?_eq_some found)
  · have holds := List.find?_some found
    exact beq_iff_eq.mp holds

set_option linter.unusedVariables false in
/-- The type of a name; `busy` holds the names whose declarations are being resolved. -/
def resolve (decls : List TypeDecl) (busy : List String) (spelling : String)
    (names : TypeNames) : TypeId × TypeNames :=
  let name := Text.trim spelling
  if name = "error" then (.error, names)
  else
    match names.known[name]? with
    | some id => (id, names)
    | none =>
      match found : declaration? decls name with
      | some decl =>
        if inBusy : name ∈ busy then (.invalid, names.warn (.cyclicType name))
        else
          TypeNames.remember name <|
            match decl with
            | .basic _ => names.enter (.basic name)
            | .named _ underlying =>
              let (id, names) := resolve decls (name :: busy) underlying names
              names.enter (.named name id)
            | .interface _ methods =>
              let (id, names) := names.enter (.interface methods)
              names.enter (.named name id)
            | .struct _ =>
              let (id, names) := names.enter .struct
              names.enter (.named name id)
      | none =>
        TypeNames.remember name <|
          match pointer : name.toList with
          | '*' :: target =>
            let (id, names) := resolve decls busy (String.ofList target) names
            names.enter (.pointer id)
          | _ => resolveUndeclared name names
termination_by (idle decls busy, spelling.length)
decreasing_by
  · apply Prod.Lex.left
    obtain ⟨member, same⟩ := declaration?_some found
    have free := inBusy
    rw [← same] at free
    have decrease := idle_cons_lt member free
    rw [same] at decrease
    exact decrease
  · apply Prod.Lex.right
    have bound := Text.length_trimChars_le spelling.toList
    have same : (Text.trim spelling).toList = Text.trimChars spelling.toList := by
      simp [Text.trim]
    have cut : (Text.trimChars spelling.toList).length = target.length + 1 := by
      rw [← same, pointer]
      rfl
    simp only [String.length_ofList]
    have whole : spelling.toList.length = spelling.length := String.length_toList
    omega

end ErrorWrapping.Dump
