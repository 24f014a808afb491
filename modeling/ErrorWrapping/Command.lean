import ErrorWrapping.CommandLine
import ErrorWrapping.Dump.Lower
import ErrorWrapping.Settings.Basic

/-
Carrying out commands.

A check reads its settings first, then the dump, so that a missing scope is told before anything
is read in vain. The findings are written out next; only when they are out are the facts written
to their file. What a command does is computed from a directory, and gives what it writes and the
directory after it.
-/

namespace ErrorWrapping

inductive CommandError where
  | settings (cause : SettingsError)
  | unreadableDump (path : String) (fault : Fault)
  | dump (cause : Dump.LoadError)
  | output
  | unwritableFacts (path : String) (fault : Fault)
  | unknownCode (text : String)
  deriving DecidableEq

def CommandError.message : CommandError → String
  | .settings cause => cause.message
  | .unreadableDump path fault => "failed to read dump `" ++ path ++ "`: " ++ fault.message
  | .dump cause => cause.message
  | .output => "failed to write output: limit reached"
  | .unwritableFacts path fault => "failed to write facts to `" ++ path ++ "`: " ++ fault.message
  | .unknownCode text => DiagnosticCode.unknownMessage text

/-! ### Check -/

structure Findings where
  rendering : Rendering
  facts : String
  isClean : Bool

namespace CheckOptions

def policy (options : CheckOptions) (settings : Except Fault String) :
    Except CommandError Policy :=
  match Settings.ofFile options.settings settings with
  | .error cause => .error (.settings cause)
  | .ok settings => (settings.toPolicy options.scope options.wrappers).mapError .settings

def program (options : CheckOptions) : Except Fault String → Except CommandError Program
  | .error fault => .error (.unreadableDump options.dump fault)
  | .ok text => ((Dump.load text).map (·.1)).mapError .dump

/-- How many units may be checked side by side; zero jobs leave it open. -/
def breadth (options : CheckOptions) : Nat :=
  if options.jobs = 0 then 2 else options.jobs

def renderOptions (options : CheckOptions) (isTerminal : Bool) : RenderOptions where
  format := options.format
  color := options.color
  isTerminal := isTerminal
  showFacts := options.showFacts

def findings? (options : CheckOptions) (isTerminal : Bool) (policy : Policy) (program : Program)
    (pool : ThreadPool := .built) : Option Findings := do
  let (schedule, _) := Schedule.build program policy
  let run ← Run.check? program policy schedule options.breadth pool
  let result := run.result
  return {
    rendering := result.render program.files (options.renderOptions isTerminal)
    facts := RunResult.factFile program result.facts
    isClean := result.isClean }

end CheckOptions

structure CheckResult where
  outcome : Except CommandError Bool
  written : String
  directory : Directory

namespace CheckResult

def failed (directory : Directory) (cause : CommandError) : CheckResult :=
  ⟨.error cause, "", directory⟩

def writeFacts (directory : Directory) (file : Option String) (text : String) :
    Except CommandError Directory :=
  match file with
  | none => .ok directory
  | some path => (directory.write path text).mapError (.unwritableFacts path)

/-- Writes findings to an output that takes so many bytes, then the facts. -/
def ofFindings (directory : Directory) (capacity : Option Nat) (factFile : Option String)
    (findings : Findings) : CheckResult :=
  let written := findings.rendering.written capacity
  if findings.rendering.fits capacity then
    match writeFacts directory factFile findings.facts with
    | .ok directory => ⟨.ok findings.isClean, written, directory⟩
    | .error cause => ⟨.error cause, written, directory⟩
  else ⟨.error .output, written, directory⟩

end CheckResult

def CheckOptions.run? (options : CheckOptions) (directory : Directory) (isTerminal : Bool)
    (capacity : Option Nat) : Option CheckResult :=
  match options.policy (directory.read (Settings.pathOf options.settings)) with
  | .error cause => some (.failed directory cause)
  | .ok policy =>
    match options.program (directory.read options.dump) with
    | .error cause => some (.failed directory cause)
    | .ok program =>
      (options.findings? isTerminal policy program).map
        (.ofFindings directory capacity options.factFile)

/-! ### Explain -/

def explain (text : String) : Except CommandError String :=
  match DiagnosticCode.ofText? text with
  | some code => .ok code.documentation
  | none => .error (.unknownCode text)

/-! ### The tool -/

/-- What the tool leaves behind. -/
structure ToolResult where
  status : Nat
  output : String
  errors : String
  directory : Directory

namespace ToolResult

def versionText : String := "wrapck 0.1.0\n"

def usageText : String :=
  "Usage: wrapck check <DUMP> [options]\n" ++
  "       wrapck explain <CODE>\n" ++
  "\n" ++
  "Options of check:\n" ++
  "  -c, --config <FILE>      settings file (default: wrapck.toml, if present)\n" ++
  "      --scope <PATH>       check the units at or below this package path\n" ++
  "      --wrapper <SIG>      signature of a function that wraps errors\n" ++
  "      --format <FORMAT>    human or json\n" ++
  "      --facts              list the verdict of every function\n" ++
  "      --emit-facts <FILE>  write the verdicts to a file\n" ++
  "  -j, --jobs <N>           number of jobs; 0 leaves it to the machine\n" ++
  "      --color <WHEN>       auto, always or never\n" ++
  "  -h, --help               print help\n" ++
  "  -V, --version            print the version\n"

def ofUsage (directory : Directory) : Usage → ToolResult
  | .help => ⟨0, usageText, "", directory⟩
  | .version => ⟨0, versionText, "", directory⟩
  | _ => ⟨2, "", usageText, directory⟩

def codeHint : String :=
  "\nCodes have the format E#### (e.g. E1001, E1002, E1003).\n"

def ofExplanation (directory : Directory) : Except CommandError String → ToolResult
  | .ok text => ⟨0, text ++ "\n", "", directory⟩
  | .error cause => ⟨2, "", "error: " ++ cause.message ++ "\n" ++ codeHint, directory⟩

/-- The exit status tells a clean program from one with diagnostics and from a failure. -/
def ofCheck (result : CheckResult) : ToolResult :=
  match result.outcome with
  | .ok isClean => ⟨if isClean then 0 else 1, result.written, "", result.directory⟩
  | .error cause => ⟨2, result.written, "error: " ++ cause.message ++ "\n", result.directory⟩

end ToolResult

def Command.run? (command : Command) (directory : Directory) (isTerminal : Bool) :
    Option ToolResult :=
  match command with
  | .explain code => some (.ofExplanation directory (ErrorWrapping.explain code))
  | .check options => (options.run? directory isTerminal none).map .ofCheck

end ErrorWrapping
