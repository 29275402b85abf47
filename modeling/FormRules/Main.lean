import FormRules.Command.Run

/-!
# The command line

Reads the files that an invocation names, runs it, and writes what it has to say.
-/

namespace FormRules

def fileFault : IO.Error → Command.FileFault
  | .noFileOrDirectory .. | .noSuchThing .. => .missing
  | .permissionDenied .. => .denied
  | .inappropriateType .. => .directory
  | error => .other (toString error)

def readText (path : String) : IO (Except Command.FileFault String) := do
  try
    match String.fromUTF8? (← IO.FS.readBinFile path) with
    | some text => return .ok text
    | none => return .error .encoding
  catch error => return .error (fileFault error)

/-- The files that a command line needs. -/
def readFiles : Command.Request → IO (List (String × Except Command.FileFault String))
  | .run invocation => invocation.paths.mapM fun path ↦ return (path, ← readText path)
  | _ => return []

def runCommandLine (arguments : List String) : IO UInt32 := do
  let request := Command.Request.ofArguments arguments
  let texts ← readFiles request
  let outcome := request.outcome fun path ↦ (texts.lookup path).getD (.error .missing)
  (← IO.getStdout).putStr outcome.stdout
  (← IO.getStderr).putStr outcome.stderr
  return outcome.exitCode.toUInt32

end FormRules

def main (arguments : List String) : IO UInt32 := FormRules.runCommandLine arguments
