import TemplateCompiler.Command.Run

/-!
# The compiler on the command line

Runs the program that the arguments ask for against the file system.
-/

namespace TemplateCompiler

namespace Command

/-- The number of a failure, which some calls report with its sign changed. -/
def systemNumber (code : UInt32) : UInt32 :=
  if code < 0x80000000 then code else 0 - code

/-- The failure behind an error of the system. -/
def FileError.ofSystem (error : IO.Error) : FileError :=
  match error with
  | .noFileOrDirectory .. => .notFound
  | .permissionDenied .. => .permissionDenied
  | .alreadyExists .. => .exists
  | .inappropriateType _ code _ =>
      if systemNumber code = 20 then .notDirectory
      else if systemNumber code = 21 then .isDirectory
      else .other (toString error)
  | .invalidArgument _ code _ =>
      if systemNumber code = 36 then .nameTooLong else .other (toString error)
  | failure => .other (toString failure)

/-- Reads a file as text. -/
def readText (path : String) : IO (Except FileError String) := do
  try
    let bytes ← IO.FS.readBinFile path
    match String.fromUTF8? bytes with
    | some text => return .ok text
    | none => return .error .notText
  catch failure => return .error (.ofSystem failure)

/-- Whether a step succeeds, and why it does not. -/
def attempt (step : IO Unit) : IO (Except FileError Unit) := do
  try
    step
    return .ok ()
  catch failure => return .error (.ofSystem failure)

/-- Whether a path leads to a directory. -/
def isDirectoryPath (path : String) : IO Bool := do
  try
    let found ← (System.mkFilePath [path]).metadata
    return found.type == .dir
  catch _ => return false

/-- Runs a program against the file system. -/
def Program.perform : Program → IO UInt32
  | .finish exitCode => return exitCode.toUInt32
  | .readFile path next => do (next (← readText path)).perform
  | .makeDirectory path next => do (next (← attempt (IO.FS.createDir path))).perform
  | .isDirectory path next => do (next (← isDirectoryPath path)).perform
  | .writeFile path text next => do (next (← attempt (IO.FS.writeFile path text))).perform
  | .print text next => do
      IO.print text
      next.perform
  | .printError text next => do
      IO.eprint text
      next.perform

end Command

end TemplateCompiler

/-- Runs the command that the arguments ask for. -/
def main (arguments : List String) : IO UInt32 := do
  let choice := TemplateCompiler.ColorChoice.ofNoColor (← IO.getEnv "NO_COLOR")
  let isTerminal ← (← IO.getStderr).isTty
  (TemplateCompiler.Command.program (choice.usesColors isTerminal) arguments).perform
