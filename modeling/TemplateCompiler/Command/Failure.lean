import TemplateCompiler.Command.Program
import TemplateCompiler.Diagnostic.Terminal

/-!
# Failing commands

How the commands report what keeps them from their work.  A command that fails
exits with code 1.
-/

namespace TemplateCompiler

namespace Command

/-- What is said of a file that cannot be read. -/
def readFailureText (path : String) : FileError → String
  | .notFound => s!"error: cannot find file '{path}'\n"
  | .permissionDenied => s!"error: permission denied reading '{path}'\n"
  | .notText => s!"error: '{path}' is not valid UTF-8\n"
  | failure => s!"error: error reading '{path}': {failure.systemMessage}\n"

namespace Program

/-- Prints what keeps the command from its work, and fails. -/
def fail (message : String) : Program :=
  .printError message (.finish 1)

/-- Reads a file that the command cannot do without. -/
def reading (path : String) (next : String → Program) : Program :=
  .readFile path fun
    | .ok text => next text
    | .error failure => fail (readFailureText path failure)

/-- Reads sources in order.  The first that cannot be read ends the command. -/
def readingSources : List String → (List Source → Program) → Program
  | [], next => next []
  | path :: paths, next =>
      reading path fun text =>
        readingSources paths fun sources => next (⟨path, text⟩ :: sources)

end Program

/-- The reports of diagnostics, each with the source that it is about, and the
closing line. -/
def reportText (colors : Bool) (problems : List (Source × Diagnostic)) : String :=
  Terminal.write colors
    (problems.flatMap (fun (source, diagnostic) =>
        Terminal.report .standard (some source) diagnostic)
      ++ Terminal.summary problems.length 0)

end Command

end TemplateCompiler
