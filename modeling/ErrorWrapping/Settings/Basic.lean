import ErrorWrapping.Directory
import ErrorWrapping.Policy
import ErrorWrapping.Settings.Toml

/-
Settings.

A settings file may name the scope and list wrappers. The command line may replace the scope and
add wrappers. The policy of a run is made of both.
-/

namespace ErrorWrapping

inductive SettingsError where
  | unreadable (path : String) (fault : Fault)
  | invalid (path : String)
  | missingScope
  deriving DecidableEq

def SettingsError.message : SettingsError → String
  | .unreadable path fault => "failed to read config `" ++ path ++ "`: " ++ fault.message
  | .invalid path => "invalid config `" ++ path ++ "`: the text is not a settings document"
  | .missingScope =>
    "no analysis scope configured; set `scope` in wrapck.toml or pass --scope"

structure Settings where
  scope : Option String
  wrappers : List String
  deriving DecidableEq, Inhabited

namespace Settings

def empty : Settings := ⟨none, []⟩

def defaultFile : String := "wrapck.toml"

def scopeOf? : Toml.Value → Option String
  | .string text => some text
  | .list _ => none

def wrappersOf? : Toml.Value → Option (List String)
  | .list items => some items
  | .string _ => none

/-- Takes one entry of a document; `wrappers` is absent until its entry is met. -/
def takeEntry? (found : Option String × Option (List String)) (entry : String × Toml.Value) :
    Option (Option String × Option (List String)) :=
  match entry, found with
  | ("scope", value), (none, wrappers) => (scopeOf? value).map fun scope => (some scope, wrappers)
  | ("wrappers", value), (scope, none) => (wrappersOf? value).map fun items => (scope, some items)
  | _, _ => none

/-- The settings of a document. No key may be unknown or occur twice. -/
def parse? (text : String) : Option Settings := do
  let entries ← Toml.parse? text
  let (scope, wrappers) ← entries.foldlM takeEntry? (none, none)
  return ⟨scope, wrappers.getD []⟩

def pathOf (named : Option String) : String :=
  named.getD defaultFile

/-- The settings from what reading their file gave. A file that was not named may be missing. -/
def ofFile (named : Option String) : Except Fault String → Except SettingsError Settings
  | .ok text =>
    match parse? text with
    | some settings => .ok settings
    | none => .error (.invalid (pathOf named))
  | .error fault =>
    if named = none ∧ fault = .notFound then .ok .empty
    else .error (.unreadable (pathOf named) fault)

def toPolicy (settings : Settings) (scope : Option String) (wrappers : List String) :
    Except SettingsError Policy :=
  match scope <|> settings.scope with
  | none => .error .missingScope
  | some scope =>
    match Policy.make scope (settings.wrappers ++ wrappers) with
    | .ok policy => .ok policy
    | .error .missingScope => .error .missingScope

end Settings

end ErrorWrapping
