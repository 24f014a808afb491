import ErrorWrapping.Command

/-
The tool itself: reads the files that a command names, carries it out and writes what it says.
-/

namespace ErrorWrapping.Tool

/-- The fault behind a failure to open a file. The system's number for it may come negated. -/
def faultOf : IO.Error → Fault
  | .inappropriateType _ number _ =>
    if number = 20 || number = -20 then .notFolder else .isFolder
  | .invalidArgument _ number _ =>
    if number = 36 || number = -36 then .nameTooLong else .zeroInPath
  | _ => .notFound

def readText (path : String) : IO (Except Fault String) := do
  try
    return textOf (← IO.FS.readBinFile path)
  catch cause => return .error (faultOf cause)

def writeText (path text : String) : IO (Except Fault Unit) := do
  try
    IO.FS.writeFile path text
    return .ok ()
  catch cause => return .error (faultOf cause)

def fail (cause : CommandError) : IO UInt32 := do
  IO.eprintln ("error: " ++ cause.message)
  return 2

def report (options : CheckOptions) (findings : Findings) : IO UInt32 := do
  IO.print findings.rendering.text
  let status : UInt32 := if findings.isClean then 0 else 1
  match options.factFile with
  | none => return status
  | some path =>
    match ← writeText path findings.facts with
    | .ok _ => return status
    | .error fault => fail (.unwritableFacts path fault)

def check (options : CheckOptions) : IO UInt32 := do
  match options.policy (← readText (Settings.pathOf options.settings)) with
  | .error cause => fail cause
  | .ok policy =>
    match options.program (← readText options.dump) with
    | .error cause => fail cause
    | .ok program =>
      match options.findings? (← (← IO.getStdout).isTty) policy program with
      | none => throw (IO.userError "the program refers to a node that it does not have")
      | some findings => report options findings

def print (result : ToolResult) : IO UInt32 := do
  IO.print result.output
  IO.eprint result.errors
  return result.status.toUInt32

end ErrorWrapping.Tool

def main (words : List String) : IO UInt32 :=
  match ErrorWrapping.CommandLine.parse words with
  | .error usage => ErrorWrapping.Tool.print (.ofUsage .empty usage)
  | .ok (.explain code) =>
    ErrorWrapping.Tool.print (.ofExplanation .empty (ErrorWrapping.explain code))
  | .ok (.check options) => ErrorWrapping.Tool.check options
