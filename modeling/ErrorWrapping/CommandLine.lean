import ErrorWrapping.Json.Reader
import ErrorWrapping.Render

/-
The command line.

A command line names a command and then its options and its operand, in any order. Words are
read from left to right. An attached value (`--scope=x`, `-cx`) is judged at once; a value in a
word of its own, and an operand, only when the next option or operand starts or the line ends.
So an unknown flag is told before a bad value right before it.
-/

namespace ErrorWrapping

structure CheckOptions where
  dump : String
  settings : Option String
  scope : Option String
  wrappers : List String
  format : OutputFormat
  showFacts : Bool
  factFile : Option String
  /-- The number of jobs; zero leaves it to the machine. -/
  jobs : Nat
  color : ColorMode
  deriving DecidableEq, Inhabited

inductive Command where
  | check (options : CheckOptions)
  | explain (code : String)
  deriving DecidableEq

inductive Usage where
  | help
  | version
  | missingCommand
  | unknownCommand
  | missingOperand
  /-- A flag that is not known, or an operand too many. -/
  | unknownArgument
  | invalidValue
  | invalidNumber
  | repeatedOption
  | unexpectedValue
  deriving DecidableEq

namespace CommandLine

/-! ### Slots -/

inductive Slot where
  | dump
  | code
  | settings
  | scope
  | wrapper
  | format
  | facts
  | factFile
  | jobs
  | color
  | help
  deriving DecidableEq

/-- Flags stand alone; all other slots take a value. -/
def Slot.takesValue : Slot → Bool
  | .facts => false
  | .help => false
  | _ => true

structure Grammar where
  operand : Slot
  long? : String → Option Slot
  short? : Char → Option Slot

def checkGrammar : Grammar where
  operand := .dump
  long?
    | "config" => some .settings
    | "scope" => some .scope
    | "wrapper" => some .wrapper
    | "format" => some .format
    | "facts" => some .facts
    | "emit-facts" => some .factFile
    | "jobs" => some .jobs
    | "color" => some .color
    | "help" => some .help
    | _ => none
  short?
    | 'c' => some .settings
    | 'j' => some .jobs
    | 'h' => some .help
    | _ => none

def explainGrammar : Grammar where
  operand := .code
  long?
    | "help" => some .help
    | _ => none
  short?
    | 'h' => some .help
    | _ => none

/-! ### Values -/

structure Draft where
  operand : Option String
  settings : Option String
  scope : Option String
  wrappers : List String
  format : Option OutputFormat
  showFacts : Bool
  factFile : Option String
  jobs : Option Nat
  color : Option ColorMode

def Draft.empty : Draft := ⟨none, none, none, [], none, false, none, none, none⟩

def pathOf (text : String) : Except Usage String :=
  if text = "" then .error .invalidValue else .ok text

def choiceOf {α : Type} (describe : α → String) (choices : List α) (text : String) :
    Except Usage α :=
  match choices.find? (describe · == text) with
  | some choice => .ok choice
  | none => .error .invalidValue

def formatOf : String → Except Usage OutputFormat :=
  choiceOf OutputFormat.describe [.human, .json]

def colorOf : String → Except Usage ColorMode :=
  choiceOf ColorMode.describe [.auto, .always, .never]

/-- A number of 64 bits in decimal digits, which may have a plus sign in front. -/
def jobsOf (text : String) : Except Usage Nat :=
  let digits := match text.toList with
    | '+' :: rest => rest
    | digits => digits
  let value := Json.digitsValue digits
  if digits ≠ [] ∧ digits.all Char.isDigit ∧ value < 0x10000000000000000 then .ok value
  else .error .invalidNumber

def once {α : Type} (slot : Option α) (value : Except Usage α) : Except Usage (Option α) :=
  if slot.isSome then .error .repeatedOption else value.map some

def Draft.fill (draft : Draft) (slot : Slot) (text : String) : Except Usage Draft :=
  match slot with
  | .dump => do return { draft with operand := ← once draft.operand (pathOf text) }
  | .code => do return { draft with operand := ← once draft.operand (.ok text) }
  | .settings => do return { draft with settings := ← once draft.settings (pathOf text) }
  | .scope => do return { draft with scope := ← once draft.scope (.ok text) }
  | .wrapper => .ok { draft with wrappers := draft.wrappers ++ [text] }
  | .format => do return { draft with format := ← once draft.format (formatOf text) }
  | .factFile => do return { draft with factFile := ← once draft.factFile (pathOf text) }
  | .jobs => do return { draft with jobs := ← once draft.jobs (jobsOf text) }
  | .color => do return { draft with color := ← once draft.color (colorOf text) }
  | .facts | .help => .error .unexpectedValue

def Draft.raise (draft : Draft) (slot : Slot) : Except Usage Draft :=
  match slot with
  | .facts =>
    if draft.showFacts then .error .repeatedOption else .ok { draft with showFacts := true }
  | .help => .error .help
  | _ => .error .invalidValue

/-! ### Words -/

/-- A slot that was started and not judged yet, with its value if it has one. -/
structure Pending where
  slot : Slot
  value : Option String

structure Reading where
  draft : Draft
  pending : Option Pending
  hasOperand : Bool
  /-- Whether every word from here on is an operand. -/
  operandsOnly : Bool

namespace Reading

def start : Reading := ⟨.empty, none, false, false⟩

def settle (reading : Reading) : Except Usage Draft :=
  match reading.pending with
  | none => .ok reading.draft
  | some ⟨_, none⟩ => .error .invalidValue
  | some ⟨slot, some text⟩ => reading.draft.fill slot text

def await (reading : Reading) (slot : Slot) (value : Option String) : Except Usage Reading := do
  return { reading with draft := ← reading.settle, pending := some ⟨slot, value⟩ }

def attach (reading : Reading) (slot : Slot) (text : String) : Except Usage Reading := do
  return { reading with draft := ← (← reading.settle).fill slot text, pending := none }

def raise (reading : Reading) (slot : Slot) : Except Usage Reading := do
  return { reading with draft := ← (← reading.settle).raise slot, pending := none }

def operand (grammar : Grammar) (reading : Reading) (word : String) : Except Usage Reading :=
  if reading.hasOperand then .error .unknownArgument
  else ({ reading with hasOperand := true }).await grammar.operand (some word)

/-- A word without a dash in front: the value of the option before it, or an operand. -/
def plain (grammar : Grammar) (reading : Reading) (word : String) : Except Usage Reading :=
  match reading.pending with
  | some ⟨slot, none⟩ => .ok { reading with pending := some ⟨slot, some word⟩ }
  | _ => reading.operand grammar word

def long (grammar : Grammar) (reading : Reading) (body : List Char) : Except Usage Reading :=
  let name := String.ofList (body.takeWhile (· ≠ '='))
  match grammar.long? name, body.dropWhile (· ≠ '=') with
  | none, _ => .error .unknownArgument
  | some slot, [] => if slot.takesValue then reading.await slot none else reading.raise slot
  | some slot, _ :: text =>
    if slot.takesValue then reading.attach slot (String.ofList text) else .error .unexpectedValue

/-- A letter after one dash, with a value right behind it or after an equals sign. -/
def short (grammar : Grammar) (reading : Reading) (letter : Char) (body : List Char) :
    Except Usage Reading :=
  match grammar.short? letter with
  | none => .error .unknownArgument
  | some slot =>
    if slot.takesValue then
      match body with
      | [] => reading.await slot none
      | '=' :: text => reading.attach slot (String.ofList text)
      | text => reading.attach slot (String.ofList text)
    else reading.raise slot

def step (grammar : Grammar) (reading : Reading) (word : String) : Except Usage Reading :=
  if reading.operandsOnly then reading.operand grammar word
  else
    match word.toList with
    | ['-', '-'] => .ok { reading with operandsOnly := true }
    | '-' :: '-' :: body => reading.long grammar body
    | '-' :: letter :: body => reading.short grammar letter body
    | _ => reading.plain grammar word

end Reading

def read (grammar : Grammar) (words : List String) : Except Usage Draft := do
  (← words.foldlM (Reading.step grammar) Reading.start).settle

/-! ### Commands -/

def readCheck (words : List String) : Except Usage Command := do
  let draft ← read checkGrammar words
  match draft.operand with
  | none => .error .missingOperand
  | some dump =>
    return .check {
      dump
      settings := draft.settings
      scope := draft.scope
      wrappers := draft.wrappers
      format := draft.format.getD .human
      showFacts := draft.showFacts
      factFile := draft.factFile
      jobs := draft.jobs.getD 1
      color := draft.color.getD .auto }

def readExplain (words : List String) : Except Usage Command := do
  let draft ← read explainGrammar words
  match draft.operand with
  | none => .error .missingOperand
  | some code => return .explain code

def isCommandName (word : String) : Bool :=
  word = "check" || word = "explain" || word = "help"

def readHelp : List String → Usage
  | [] => .help
  | [word] => if isCommandName word then .help else .unknownCommand
  | _ => .unknownCommand

def leadingFlag : List Char → Usage
  | '-' :: name =>
    let isKnown := name.takeWhile (· ≠ '=') = "help".toList ∨
      name.takeWhile (· ≠ '=') = "version".toList
    if ¬isKnown then .unknownArgument
    else if '=' ∈ name then .unexpectedValue
    else if name = "help".toList then .help
    else .version
  | 'h' :: _ => .help
  | 'V' :: _ => .version
  | _ => .unknownArgument

/-- Two dashes in front of any command leave no way to name one. -/
def afterDashes : List String → Usage
  | [] => .missingCommand
  | word :: _ => if isCommandName word then .unknownArgument else .unknownCommand

def parse : List String → Except Usage Command
  | [] => .error .missingCommand
  | "check" :: words => readCheck words
  | "explain" :: words => readExplain words
  | "help" :: words => .error (readHelp words)
  | "--" :: words => .error (afterDashes words)
  | word :: _ =>
    match word.toList with
    | '-' :: c :: rest => .error (leadingFlag (c :: rest))
    | _ => .error .unknownCommand

end CommandLine

end ErrorWrapping
