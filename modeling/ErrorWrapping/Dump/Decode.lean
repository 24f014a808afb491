import ErrorWrapping.Dump.Basic
import ErrorWrapping.Json.Reader
import ErrorWrapping.Json.Record

/-
Dumps as JSON.

Each type of a dump is a record. The kinds of types, statements and expressions have snake-case
names. Statements and expressions hold one another, so their readers are bounded by the depth to
which a JSON text may be nested.
-/

namespace ErrorWrapping.Dump

open Json (fields? kind? required withDefault optional list string?)

def nestingLimit : Nat := 127

/-- A coordinate is a natural number below 2^32. -/
def coordinate? (value : Json) : Option Nat := do
  let n ← value.natural?
  guard (n < 0x100000000)
  return n

def position? : Json → Option Position
  | .array [line, column] => do return ⟨← coordinate? line, ← coordinate? column⟩
  | _ => none

def strings? : Json → Option (List String) :=
  list string?

def file? (value : Json) : Option FileEntry := do
  match ← fields? ["path", "text", "lines"] value with
  | [path, text, lines] =>
    return { path := ← required string? path
             text := ← optional string? text
             lines := ← withDefault [] strings? lines }
  | _ => none

def typeKinds : List String := ["basic", "named", "interface", "struct"]

def type? (value : Json) : Option TypeDecl := do
  let (kind, value) ← kind? false typeKinds value
  match kind with
  | "basic" =>
    match ← fields? ["name"] value with
    | [name] => return .basic (← required string? name)
    | _ => none
  | "named" =>
    match ← fields? ["name", "underlying"] value with
    | [name, underlying] =>
      return .named (← required string? name) (← required string? underlying)
    | _ => none
  | "interface" =>
    match ← fields? ["name", "methods"] value with
    | [name, methods] =>
      return .interface (← required string? name) (← withDefault [] strings? methods)
    | _ => none
  | "struct" =>
    match ← fields? ["name"] value with
    | [name] => return .struct (← required string? name)
    | _ => none
  | _ => none

def symbol? (value : Json) : Option SymbolEntry := do
  match ← fields? ["package", "name", "receiver", "signature", "results"] value with
  | [package, name, receiver, signature, results] =>
    return { package := ← required string? package
             name := ← required string? name
             receiver := ← optional string? receiver
             signature := ← required string? signature
             results := ← withDefault [] strings? results }
  | _ => none

def varKindNamed? (name : String) : Option VarKind :=
  if name = "param" then some .param
  else if name = "result" then some .result
  else if name = "local" then some .local
  else if name = "global" then some .global
  else none

/-- The kind of a variable: its name, or an object whose only member has that name and is null. -/
def varKind? : Json → Option VarKind
  | .string name => varKindNamed? name
  | .object [(name, .null)] => varKindNamed? name
  | _ => none

def var? (value : Json) : Option VarEntry := do
  match ← fields? ["id", "name", "kind", "type", "at"] value with
  | [id, name, kind, type, place] =>
    return { id := ← required string? id
             name := ← optional string? name
             kind := ← withDefault .local varKind? kind
             type := ← required string? type
             at? := ← optional position? place }
  | _ => none

def result? (value : Json) : Option ResultEntry := do
  match ← fields? ["type", "var"] value with
  | [type, var] => return ⟨← required string? type, ← optional string? var⟩
  | _ => none

def exprKinds : List String :=
  ["var", "blank", "func", "package", "select", "field", "call", "nil", "literal", "func_lit",
    "other"]

def stmtKinds : List String :=
  ["define", "assign", "var", "return", "expr", "block", "if", "loop", "switch"]

mutual

def expr? : Nat → Json → Option Expr
  | 0, _ => none
  | depth + 1, value => do
    let (kind, value) ← kind? true exprKinds value
    match kind with
    | "var" =>
      match ← fields? ["var", "at"] value with
      | [id, place] => return .var (← required string? id) (← optional position? place)
      | _ => none
    | "blank" =>
      match ← fields? ["at"] value with
      | [place] => return .blank (← optional position? place)
      | _ => none
    | "func" =>
      match ← fields? ["symbol", "at"] value with
      | [symbol, place] => return .func (← required string? symbol) (← optional position? place)
      | _ => none
    | "package" =>
      match ← fields? ["path", "at"] value with
      | [path, place] => return .package (← required string? path) (← optional position? place)
      | _ => none
    | "select" =>
      match ← fields? ["base", "symbol", "at"] value with
      | [base, symbol, place] =>
        return .select (← required (expr? depth) base) (← required string? symbol)
          (← optional position? place)
      | _ => none
    | "field" =>
      match ← fields? ["base", "name", "type", "at"] value with
      | [base, name, type, place] =>
        return .field (← required (expr? depth) base) (← required string? name)
          (← optional string? type) (← optional position? place)
      | _ => none
    | "call" =>
      match ← fields? ["callee", "args", "type", "at"] value with
      | [callee, args, type, place] =>
        return .call (← required (expr? depth) callee) (← withDefault [] (list (expr? depth)) args)
          (← optional string? type) (← optional position? place)
      | _ => none
    | "nil" =>
      match ← fields? ["at"] value with
      | [place] => return .nil (← optional position? place)
      | _ => none
    | "literal" =>
      match ← fields? ["type", "at"] value with
      | [type, place] => return .literal (← optional string? type) (← optional position? place)
      | _ => none
    | "func_lit" =>
      match ← fields? ["function", "at"] value with
      | [function, place] =>
        return .funcLit (← required (function? true depth) function) (← optional position? place)
      | _ => none
    | "other" =>
      match ← fields? ["operands", "type", "at"] value with
      | [operands, type, place] =>
        return .other (← withDefault [] (list (expr? depth)) operands) (← optional string? type)
          (← optional position? place)
      | _ => none
    | _ => none

/-- A statement; `inner` when it stands inside another statement or an expression. -/
def stmt? (inner : Bool) : Nat → Json → Option Stmt
  | 0, _ => none
  | depth + 1, value => do
    let (kind, value) ← kind? inner stmtKinds value
    match kind with
    | "define" =>
      match ← fields? ["lhs", "rhs", "at"] value with
      | [targets, values, place] =>
        return .define (← required (list (expr? depth)) targets)
          (← required (list (expr? depth)) values) (← optional position? place)
      | _ => none
    | "assign" =>
      match ← fields? ["lhs", "rhs", "at"] value with
      | [targets, values, place] =>
        return .assign (← required (list (expr? depth)) targets)
          (← required (list (expr? depth)) values) (← optional position? place)
      | _ => none
    | "var" =>
      match ← fields? ["names", "values", "at"] value with
      | [names, values, place] =>
        return .var (← required (list (expr? depth)) names)
          (← withDefault [] (list (expr? depth)) values) (← optional position? place)
      | _ => none
    | "return" =>
      match ← fields? ["results", "at"] value with
      | [results, place] =>
        return .ret (← withDefault [] (list (expr? depth)) results) (← optional position? place)
      | _ => none
    | "expr" =>
      match ← fields? ["expr", "at"] value with
      | [expr, place] => return .expr (← required (expr? depth) expr) (← optional position? place)
      | _ => none
    | "block" =>
      match ← fields? ["body", "at"] value with
      | [body, place] =>
        return .block (← required (list (stmt? true depth)) body) (← optional position? place)
      | _ => none
    | "if" =>
      match ← fields? ["init", "cond", "then", "else", "at"] value with
      | [init, test, body, otherwise, place] =>
        return .cond (← optional (stmt? true depth) init) (← required (expr? depth) test)
          (← withDefault [] (list (stmt? true depth)) body)
          (← optional (stmt? true depth) otherwise) (← optional position? place)
      | _ => none
    | "loop" =>
      match ← fields? ["init", "body", "at"] value with
      | [init, body, place] =>
        return .loop (← optional (stmt? true depth) init)
          (← withDefault [] (list (stmt? true depth)) body) (← optional position? place)
      | _ => none
    | "switch" =>
      match ← fields? ["init", "tag", "cases", "at"] value with
      | [init, tag, cases, place] =>
        return .switch (← optional (stmt? true depth) init) (← optional (expr? depth) tag)
          (← withDefault [] (list (list (stmt? true depth))) cases) (← optional position? place)
      | _ => none
    | _ => none

def function? (inner : Bool) : Nat → Json → Option Function
  | 0, _ => none
  | depth + 1, value => do
    let names := ["name", "receiver", "signature", "file", "at", "params", "results", "body"]
    match ← fields? names value with
    | [name, receiver, signature, file, place, params, results, body] =>
      let signature : Signature :=
        { name := ← withDefault "" string? name
          receiver := ← optional string? receiver
          signature := ← optional string? signature
          file := ← optional string? file
          at? := ← optional position? place
          params := ← withDefault [] strings? params
          results := ← withDefault [] (list result?) results }
      return .mk signature (← optional (list (stmt? inner depth)) body)
    | _ => none

end

def unit? (value : Json) : Option UnitEntry := do
  match ← fields? ["path", "files", "imports", "vars", "functions", "globals"] value with
  | [path, files, imports, vars, functions, globals] =>
    return { path := ← required string? path
             files := ← withDefault [] strings? files
             imports := ← withDefault [] strings? imports
             vars := ← withDefault [] (list var?) vars
             functions := ← withDefault [] (list (function? false nestingLimit)) functions
             globals := ← withDefault [] (list (stmt? false nestingLimit)) globals }
  | _ => none

def ofJson? (value : Json) : Option Dump := do
  match ← fields? ["files", "types", "symbols", "units"] value with
  | [files, types, symbols, units] =>
    return { files := ← withDefault [] (list file?) files
             types := ← withDefault [] (list type?) types
             symbols := ← withDefault [] (list symbol?) symbols
             units := ← withDefault [] (list unit?) units }
  | _ => none

def parse? (text : String) : Option Dump := do
  ofJson? (← Json.parse? nestingLimit text)

end ErrorWrapping.Dump
