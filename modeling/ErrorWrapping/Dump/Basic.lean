/-
Dumps.

A dump is what a front end says about a type-checked program: source files, declared types,
function symbols and units. References are texts: a type by its name, a function by its key, a
variable by an identifier that is unique within its unit. Positions are lines and byte columns.
-/

namespace ErrorWrapping.Dump

structure Position where
  line : Nat
  column : Nat
  deriving DecidableEq, Inhabited

structure FileEntry where
  path : String
  text : Option String
  lines : List String
  deriving DecidableEq, Inhabited

def FileEntry.content (file : FileEntry) : String :=
  file.text.getD ("\n".intercalate file.lines)

inductive TypeDecl where
  | basic (name : String)
  | named (name underlying : String)
  | interface (name : String) (methods : List String)
  | struct (name : String)
  deriving DecidableEq, Inhabited

def TypeDecl.name : TypeDecl → String
  | .basic name => name
  | .named name _ => name
  | .interface name _ => name
  | .struct name => name

structure SymbolEntry where
  package : String
  name : String
  receiver : Option String
  signature : String
  results : List String
  deriving DecidableEq, Inhabited

inductive VarKind where
  | param
  | result
  | local
  | global
  deriving DecidableEq, Inhabited

structure VarEntry where
  id : String
  name : Option String
  kind : VarKind
  type : String
  at? : Option Position
  deriving DecidableEq, Inhabited

structure ResultEntry where
  type : String
  var : Option String
  deriving DecidableEq, Inhabited

structure Signature where
  name : String
  receiver : Option String
  /-- Text of the symbol to register when no symbol entry is given. -/
  signature : Option String
  /-- The file that positions refer to from here on. -/
  file : Option String
  at? : Option Position
  params : List String
  results : List ResultEntry
  deriving DecidableEq, Inhabited

mutual

inductive Expr where
  | var (id : String) (at? : Option Position)
  | blank (at? : Option Position)
  | func (symbol : String) (at? : Option Position)
  | package (path : String) (at? : Option Position)
  | select (base : Expr) (symbol : String) (at? : Option Position)
  | field (base : Expr) (name : String) (type : Option String) (at? : Option Position)
  | call (callee : Expr) (args : List Expr) (type : Option String) (at? : Option Position)
  | nil (at? : Option Position)
  | literal (type : Option String) (at? : Option Position)
  | funcLit (function : Function) (at? : Option Position)
  | other (operands : List Expr) (type : Option String) (at? : Option Position)

inductive Stmt where
  | define (targets values : List Expr) (at? : Option Position)
  | assign (targets values : List Expr) (at? : Option Position)
  | var (names values : List Expr) (at? : Option Position)
  | ret (results : List Expr) (at? : Option Position)
  | expr (expr : Expr) (at? : Option Position)
  | block (body : List Stmt) (at? : Option Position)
  | cond (init : Option Stmt) (test : Expr) (body : List Stmt) (otherwise : Option Stmt)
      (at? : Option Position)
  | loop (init : Option Stmt) (body : List Stmt) (at? : Option Position)
  | switch (init : Option Stmt) (tag : Option Expr) (cases : List (List Stmt))
      (at? : Option Position)

/-- A declared function or a literal; a declaration may lack a body. -/
inductive Function where
  | mk (signature : Signature) (body : Option (List Stmt))

end

instance : Inhabited Expr := ⟨.nil none⟩
instance : Inhabited Stmt := ⟨.ret [] none⟩
instance : Inhabited Function := ⟨.mk default none⟩

def Function.signature : Function → Signature
  | .mk signature _ => signature

def Function.body : Function → Option (List Stmt)
  | .mk _ body => body

structure UnitEntry where
  path : String
  files : List String
  imports : List String
  vars : List VarEntry
  functions : List Function
  globals : List Stmt
  deriving Inhabited

end ErrorWrapping.Dump

namespace ErrorWrapping

structure Dump where
  files : List Dump.FileEntry
  types : List Dump.TypeDecl
  symbols : List Dump.SymbolEntry
  units : List Dump.UnitEntry
  deriving Inhabited

end ErrorWrapping
